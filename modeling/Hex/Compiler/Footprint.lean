/-
# Compiler.Footprint — which cells a program writes

The compiler fills cells once, and the program is run many times. So its code must leave
alone what it relies on.

* `Op.written`: the cells that a step writes, and **`eval_keeps`**: code changes no other cell.
* `Gen.Relies`: part of a program relies on cells that the compiler filled, and writes none of them.
* `Tidy P g out given`: the steps of the code are of the kind `P`, it writes the cells `out` and
  cells that were allocated for it, relies on `given` and on cells that were allocated for it, and
  writes none that it relies on; with the rules for sequences, blocks and allocation.
-/
import Hex.Compiler.Frame
import Hex.Compiler.Emitted

namespace Hex.Compiler

open Theory.BlockCode

/-! ## Steps -/

def Op.written : Op → List Cell
  | .var res _ _ | .const res _ | .boolNotStep res | .qual res | .nullTest res _ | .boolTest res _
  | .caseTestVal res _ | .domainTestVal res _ | .makeReadonly res _ | .rowCompareFinal res _
  | .aggref res _ | .windowFunc res _ | .sbsrefSubscript res _ _ _ => [res]
  | .funcExpr res _ | .funcExprStrict res _ | .funcExprFusage res _ | .funcExprStrictFusage res _
  | .distinct res _ | .notDistinct res _ | .nullif res _ | .rowCompareStep res _ | .aggDeserialize _ res _ => [res]
  | .boolStep _ _ res anynull => [res, anynull]
  -- the value and the string are passed on as first arguments
  | .ioCoerce res out inp => res :: (out.args.take 1 ++ inp.args.take 1)
  | .eval _ _ writes => writes
  -- the transition value is the first argument
  | .aggPlainTrans _ t => t.args.take 1
  | .done | .fetchSome _ _ | .assignVar _ _ _ | .assignTmp _ | .assignTmpMakeRO _ | .jump | .jumpIfNull _
  | .jumpIfNotNull _ | .jumpIfNotTrue _ | .domainNotnull _ _ | .domainCheck _ _ _ | .aggStrictInputCheck _
  | .aggPlainPergroupNullcheck _ => []

/-- A step that was started on `m` and did not fail has left the cell alone. -/
def KeepsCell (c : Cell) (m : Machine) : Flow Machine Raised → Prop
  | .next m' | .jump _ m' | .done m' => m'.mem c = m.mem c
  | .fail _ => True

namespace KeepsCell

variable {w : World} {c : Cell} {m m0 : Machine} {res : Cell}

lemma ite {p : Prop} [Decidable p] {a b : Flow Machine Raised} (first : KeepsCell c m a)
    (second : KeepsCell c m b) : KeepsCell c m (if p then a else b) := by
  split
  · exact first
  · exact second

lemma call {k : List NullableDatum → Machine → Flow Machine Raised} {what : Call}
    (later : ∀ ds, KeepsCell c m (k ds { m with trace := m.trace ++ [what] })) :
    KeepsCell c m (m.call w what k) := by
  unfold Machine.call
  cases w.answer m.trace what with
  | error message => trivial
  | ok ds => exact later ds

/-- A step may go on from a machine on which the cell is the same. -/
lemma after {flow : Flow Machine Raised} (same : m.mem c = m0.mem c) (keeps : KeepsCell c m flow) :
    KeepsCell c m0 flow := by
  cases flow with
  | next | jump | done => exact Eq.trans keeps same
  | fail e => trivial

lemma setFirst {cells : List Cell} (apart : c ∉ cells.take 1) (d : NullableDatum) :
    (m.setFirst cells d).mem c = m.mem c := by
  cases cells with
  | nil => rfl
  | cons first rest =>
    rw [List.take_succ_cons, List.take_zero, List.mem_singleton] at apart
    exact Machine.mem_set_ne m d apart

lemma setAll {cells : List Cell} (apart : c ∉ cells) (ds : List NullableDatum) :
    (m.setAll cells ds).mem c = m.mem c := by
  induction cells generalizing m ds with
  | nil => rfl
  | cons first rest ih =>
    rw [List.mem_cons, not_or] at apart
    exact (ih apart.2 ds.tail).trans (Machine.mem_set_ne m _ apart.1)

lemma execFuncExpr (apart : c ≠ res) (f : FuncCall) : KeepsCell c m (Compiler.execFuncExpr w res f m) :=
  call fun _ => Machine.mem_set_ne _ _ apart

lemma execFuncExprStrict (apart : c ≠ res) (f : FuncCall) :
    KeepsCell c m (Compiler.execFuncExprStrict w res f m) :=
  ite (Machine.mem_set_ne m _ apart) (execFuncExpr apart f)

lemma execBoolStep (boolop : AndOr) (pos : StepPos) {anynull : Cell} (apart : c ≠ res) (apart' : c ≠ anynull) :
    KeepsCell c m (Compiler.execBoolStep boolop pos res anynull m) := by
  cases pos with
  | first =>
    have cleared : (m.set anynull { value := 0, isnull := false }).mem c = m.mem c := Machine.mem_set_ne m _ apart'
    exact ite ((Machine.mem_set_ne _ _ apart').trans cleared) (ite cleared cleared)
  | middle => exact ite (Machine.mem_set_ne m _ apart') (ite rfl rfl)
  | last => exact ite rfl (ite rfl (ite (Machine.mem_set_ne m _ apart) rfl))

lemma execBoolTest (apart : c ≠ res) (test : BoolTest) : (Compiler.execBoolTest res test m).mem c = m.mem c := by
  unfold Compiler.execBoolTest
  split
  · exact Machine.mem_set_ne m _ apart
  · cases test with
    | isTrue | isNotFalse => rfl
    | isFalse | isNotTrue => exact Machine.mem_set_ne m _ apart

lemma execInputFunction {inp : FuncCall} (apart : c ≠ res) (apart' : c ∉ inp.args.take 1) (str : Datum) :
    KeepsCell c m (Compiler.execInputFunction w res inp str m) := by
  refine ite (after (setFirst apart' { value := str, isnull := (m.mem res).isnull }) (call fun ds => ?_)) rfl
  exact Machine.mem_set_ne _ _ apart

lemma execIOCoerce {out inp : FuncCall} (apart : c ≠ res) (apartOut : c ∉ out.args.take 1)
    (apartInp : c ∉ inp.args.take 1) : KeepsCell c m (Compiler.execIOCoerce w res out inp m) := by
  refine ite (execInputFunction apart apartInp 0) ?_
  refine after (setFirst apartOut { value := (m.mem res).value, isnull := false }) (call fun ds => ?_)
  exact execInputFunction apart apartInp _

lemma execDistinct (negate : Bool) (apart : c ≠ res) (f : FuncCall) :
    KeepsCell c m (Compiler.execDistinct w negate res f m) := by
  unfold Compiler.execDistinct
  split
  · refine ite (Machine.mem_set_ne m _ apart) (ite (Machine.mem_set_ne m _ apart) ?_)
    exact call fun _ => Machine.mem_set_ne _ _ apart
  · trivial

lemma execNullif (apart : c ≠ res) (f : FuncCall) : KeepsCell c m (Compiler.execNullif w res f m) := by
  unfold Compiler.execNullif
  split
  · refine ite (call fun ds => ?_) (Machine.mem_set_ne m _ apart)
    exact ite (Machine.mem_set_ne _ _ apart) (Machine.mem_set_ne _ _ apart)
  · trivial

lemma execRowCompareStep (apart : c ≠ res) (f : FuncCall) :
    KeepsCell c m (Compiler.execRowCompareStep w res f m) := by
  refine ite (Machine.mem_set_ne m _ apart) (call fun ds => ?_)
  have first (m : Machine) : (m.setValue res (returned ds).value).mem c = m.mem c := Machine.mem_set_ne m _ apart
  have second (m : Machine) (b : Bool) : (m.setNull res b).mem c = m.mem c := Machine.mem_set_ne m _ apart
  refine after (first m) (ite (second _ true) ?_)
  exact ite (second _ false) (second _ false)

lemma execAggPlainTrans {t : TransCall} (apart : c ∉ t.args.take 1) (g : PerGroup) :
    KeepsCell c m (Compiler.execAggPlainTrans w t g m) := by
  refine after (setFirst apart { value := g.transValue, isnull := g.transValueIsNull }) (call fun ds => ?_)
  exact ite (call fun _ => rfl) rfl

lemma execAggTrans (kind : TransKind) {t : TransCall} (apart : c ∉ t.args.take 1) :
    KeepsCell c m (Compiler.execAggTrans w kind t m) := by
  unfold Compiler.execAggTrans
  cases m.pergroups t.setoff with
  | none => trivial
  | some groups =>
    have called := execAggPlainTrans (w := w) (m := m) apart (groups t.transno)
    have init : KeepsCell c m (execAggInitGroup w t m) := by
      unfold execAggInitGroup
      split
      · exact call fun _ => rfl
      · trivial
    cases kind with
    | initStrict => exact ite init (ite rfl called)
    | strict => exact ite rfl called
    | plain => exact called

end KeepsCell

/-- **A step writes only the cells that it is said to write.** -/
theorem interpStep_keeps {w : World} {op : Op} {c : Cell} (apart : c ∉ op.written) (m : Machine) :
    KeepsCell c m (interpStep w op m) := by
  have ne {res : Cell} (single : op.written = [res]) : c ≠ res := by
    rw [single, List.mem_singleton] at apart
    exact apart
  cases op with
  | done | assignVar | assignTmp | jump => rfl
  | fetchSome slot lastVar => exact KeepsCell.ite (KeepsCell.call fun _ => rfl) rfl
  | assignTmpMakeRO => exact KeepsCell.ite rfl (KeepsCell.call fun _ => rfl)
  | jumpIfNull | jumpIfNotNull | jumpIfNotTrue | aggStrictInputCheck => exact KeepsCell.ite rfl rfl
  | domainNotnull | domainCheck => exact KeepsCell.ite trivial rfl
  | var | const | boolNotStep | nullTest | caseTestVal | domainTestVal | rowCompareFinal | aggref | windowFunc =>
    exact Machine.mem_set_ne m _ (ne rfl)
  | boolTest => exact KeepsCell.execBoolTest (ne rfl) _
  | qual => exact KeepsCell.ite (Machine.mem_set_ne m _ (ne rfl)) rfl
  | makeReadonly =>
    exact KeepsCell.ite (Machine.mem_set_ne m _ (ne rfl)) (KeepsCell.call fun _ => Machine.mem_set_ne _ _ (ne rfl))
  | funcExpr | funcExprFusage => exact KeepsCell.execFuncExpr (ne rfl) _
  | funcExprStrict | funcExprStrictFusage => exact KeepsCell.execFuncExprStrict (ne rfl) _
  | distinct | notDistinct => exact KeepsCell.execDistinct _ (ne rfl) _
  | nullif => exact KeepsCell.execNullif (ne rfl) _
  | rowCompareStep => exact KeepsCell.execRowCompareStep (ne rfl) _
  | aggDeserialize => exact KeepsCell.ite rfl (KeepsCell.execFuncExpr (ne rfl) _)
  | sbsrefSubscript res sub helper isAssignment =>
    change KeepsCell c m (execSubscriptingRef w res sub helper isAssignment m)
    refine KeepsCell.call fun ds => KeepsCell.ite (KeepsCell.ite ?_ ?_) ?_
    · trivial
    · exact Machine.mem_set_ne _ _ (ne rfl)
    · rfl
  | boolStep boolop pos res anynull =>
    simp only [Op.written, List.mem_cons, List.not_mem_nil, or_false, not_or] at apart
    exact KeepsCell.execBoolStep boolop pos apart.1 apart.2
  | ioCoerce res out inp =>
    simp only [Op.written, List.mem_cons, List.mem_append, not_or] at apart
    exact KeepsCell.execIOCoerce apart.1 apart.2.1 apart.2.2
  | eval helper reads writes =>
    change KeepsCell c m (execEval w helper reads writes m)
    refine KeepsCell.call fun ds => ?_
    exact KeepsCell.setAll apart ds
  | aggPlainPergroupNullcheck setoff =>
    simp only [interpStep]
    cases m.pergroups setoff <;> rfl
  | aggPlainTrans kind t => exact KeepsCell.execAggTrans kind apart

/-- **Code changes no cell that none of its steps writes.** -/
theorem eval_keeps {w : World} {c : Cell} : ∀ {code : Code Op} {m : Machine},
    code.Each (fun i => c ∉ i.op.written) → ∀ m', (eval (interpStep w) code m = .next m' ∨
      ∃ k, eval (interpStep w) code m = .exit k m') → m'.mem c = m.mem c
  | .skip, m, _, m', ends => by
    simp only [eval, Result.next.injEq, reduceCtorEq, exists_false, or_false] at ends
    rw [ends]
  | .instr i, m, apart, m', ends => by
    have step := interpStep_keeps (w := w) apart m
    simp only [eval] at ends
    cases ran : interpStep w i.op m with
    | next s =>
      rw [ran] at step ends
      simp only [Result.next.injEq, reduceCtorEq, exists_false, or_false] at ends
      exact ends ▸ step
    | jump j s =>
      rw [ran] at step ends
      cases labelled : i.labels[j]? with
      | none => simp [labelled] at ends
      | some k =>
        simp only [labelled, reduceCtorEq, Result.exit.injEq, exists_eq_left', false_or] at ends
        exact ends ▸ step
    | done | fail => simp [ran] at ends
  | .seq a b, m, apart, m', ends => by
    simp only [eval] at ends
    cases ran : eval (interpStep w) a m with
    | next s =>
      rw [ran] at ends
      exact (eval_keeps apart.2 m' ends).trans (eval_keeps apart.1 s (Or.inl ran))
    | exit k s =>
      simp only [ran, reduceCtorEq, false_or] at ends
      exact eval_keeps apart.1 m' (Or.inr (by rw [ran]; exact ends))
    | done | fail | stuck => simp [ran] at ends
  | .block body, m, apart, m', ends => by
    have inside : eval (interpStep w) body m = .next m' ∨ ∃ k, eval (interpStep w) body m = .exit k m' := by
      simp only [eval] at ends
      cases ran : eval (interpStep w) body m with
      | next s => simpa [ran] using ends
      | exit k s => cases k <;> simpa [ran] using ends
      | done | fail | stuck => simp [ran] at ends
    have kept : body.Each fun i => c ∉ i.op.written := apart
    exact eval_keeps kept m' inside

/-! ## Cells that code relies on -/

/-- The code at `h` relies on cells of `K` only, and writes none of them. -/
def Gen.Relies {d : Nat} (g : Gen d) (K : List (Cell × NullableDatum)) (h : Nat) : Prop :=
  (∀ p ∈ (g.piece h).constants, p ∈ K) ∧ ∀ p ∈ K, (g.piece h).code.Each fun i => p.1 ∉ i.op.written

namespace Gen

variable {d h : Nat} {K : List (Cell × NullableDatum)}

@[simp] lemma relies_seq {a b : Gen d} : (a.seq b).Relies K h ↔ a.Relies K h ∧ b.Relies K (a.piece h).heap := by
  constructor
  · rintro ⟨constants, keeps⟩
    obtain ⟨first, second⟩ := List.forall_mem_append.mp constants
    exact ⟨⟨first, fun p member => (keeps p member).1⟩, second, fun p member => (keeps p member).2⟩
  · rintro ⟨first, second⟩
    exact ⟨List.forall_mem_append.mpr ⟨first.1, second.1⟩, fun p member => ⟨first.2 p member, second.2 p member⟩⟩

@[simp] lemma relies_palloc {n : Nat} {rest : Nat → Gen d} :
    (Gen.palloc n rest).Relies K h ↔ (rest h).Relies K (h + n) := Iff.rfl

@[simp] lemma relies_block {a : Gen (d + 1)} : (Gen.block a).Relies K h ↔ a.Relies K h := Iff.rfl

@[simp] lemma relies_inner {a : Gen 0} : (Gen.inner a : Gen d).Relies K h ↔ a.Relies K h := Iff.rfl

/-- **What the compiler stored is still there after a run.** -/
theorem Relies.loaded {w : World} {g : Gen d} {m m1 : Machine} (relies : g.Relies K h) (loaded : Loaded K m)
    (ran : eval (interpStep w) (g.piece h).code m = .next m1) : Loaded K m1 := by
  intro p member
  rw [eval_keeps (relies.2 p member) m1 (Or.inl ran)]
  exact loaded p member

end Gen

/-! ## Tidy code -/

/-- What is known of the cells that code writes and of those that are given to it. -/
structure Room (h : Nat) (out : Cell → Prop) (given : List Cell) : Prop where
  written : ∀ c, out c → Older h c
  provided : ∀ c ∈ given, Older h c
  apart : ∀ c ∈ given, ¬ out c

/-- The step writes one cell, does not jump and reads no column. -/
structure Op.Sets (op : Op) (res : Cell) : Prop where
  written : op.written = [res]
  jumps : op.jumps = 0
  column : op.column = none

/-- Code of steps of the kind `P` that writes the cells `out` and cells that were allocated for it,
that relies on `given` and on cells that were allocated for it, and that writes none that it relies on. -/
structure Tidy (P : Instr Op Nat → Prop) {d : Nat} (g : Gen d) (out : Cell → Prop) (given : List Cell) : Prop where
  each : g.Each P
  writes : ∀ h, (g.piece h).code.Each fun i => ∀ c ∈ i.op.written, out c ∨ Fresh h (g.piece h).heap c
  stored : Stores g given
  kept : ∀ h, Room h out given → ∀ p ∈ (g.piece h).constants, (g.piece h).code.Each fun i => p.1 ∉ i.op.written

namespace Tidy

variable {P : Instr Op Nat → Prop} {d : Nat} {out : Cell → Prop} {given : List Cell} {labels : List Nat}

lemma nop : Tidy P (Gen.nop : Gen d) out given :=
  ⟨fun _ => trivial, fun _ => trivial, Stores.nop, fun _ _ _ _ => trivial⟩

lemma ofStep {op : Op} {inside : ∀ k ∈ labels, k < d} (holds : P { op := op, labels := labels })
    (writes : ∀ c ∈ op.written, out c) : Tidy P (Gen.jump op labels inside) out given :=
  ⟨fun _ => holds, fun _ c member => Or.inl (writes c member), Stores.jump op labels inside, fun _ _ _ => nofun⟩

lemma jump (admits : Admits P) {op : Op} {inside : ∀ k ∈ labels, k < d}
    (writes : ∀ c ∈ op.written, out c) (jumps : op.jumps ≤ labels.length) (column : op.column = none) :
    Tidy P (Gen.jump op labels inside) out given := ofStep (admits op labels jumps column) writes

lemma step (admits : Admits P) {op : Op} (writes : ∀ c ∈ op.written, out c) (jumps : op.jumps = 0)
    (column : op.column = none) : Tidy P (Gen.step op : Gen d) out given :=
  jump admits writes (Nat.le_of_eq jumps) column

lemma single (admits : Admits P) {op : Op} {res : Cell} (inside : out res) (sets : op.Sets res) :
    Tidy P (Gen.step op : Gen d) out given := by
  refine step admits (fun c member => ?_) sets.jumps sets.column
  rw [sets.written, List.mem_singleton] at member
  exact member ▸ inside

lemma store {c : Cell} (member : c ∈ given) (value : NullableDatum) : Tidy P (Gen.store c value : Gen d) out given :=
  ⟨fun _ => trivial, fun _ => trivial, Stores.store member value, fun _ _ _ _ => trivial⟩

lemma preset (c : Cell) (value : NullableDatum) : Tidy P (Gen.preset c value : Gen d) out given :=
  ⟨fun _ => trivial, fun _ => trivial, Stores.preset c value, fun _ _ _ _ => trivial⟩

lemma block {a : Gen (d + 1)} (body : Tidy P a out given) : Tidy P (Gen.block a) out given :=
  ⟨body.each, body.writes, body.stored, body.kept⟩

lemma inner {a : Gen 0} (body : Tidy P a out given) : Tidy P (Gen.inner a : Gen d) out given :=
  ⟨body.each, body.writes, body.stored, body.kept⟩

lemma ite {a b : Gen d} {p : Prop} [Decidable p] (first : Tidy P a out given) (second : Tidy P b out given) :
    Tidy P (if p then a else b) out given := by
  split
  · exact first
  · exact second

end Tidy

lemma Room.later {h h' : Nat} {out : Cell → Prop} {given : List Cell} (room : Room h out given) (le : h ≤ h') :
    Room h' out given :=
  ⟨fun c inside => (room.written c inside).mono le, fun c member => (room.provided c member).mono le, room.apart⟩

/-- Steps that write nothing but `out` and the cells from `lo` to `hi` leave alone what is given
and the cells from `lo'` to `hi'`. -/
lemma Room.each {h lo hi lo' hi' : Nat} {out : Cell → Prop} {given : List Cell} {code : Code Op} {c : Cell}
    (room : Room h out given) (low : h ≤ lo) (low' : h ≤ lo') (apart : hi ≤ lo' ∨ hi' ≤ lo)
    (writes : code.Each fun i => ∀ c ∈ i.op.written, out c ∨ Fresh lo hi c)
    (stored : c ∈ given ∨ Fresh lo' hi' c) : code.Each fun i => c ∉ i.op.written := by
  refine writes.imp fun i writes member => ?_
  rcases writes c member with inside | fresh
  · rcases stored with given | fresh'
    · exact room.apart c given inside
    · exact ((room.written c inside).mono low').not_fresh fresh'
  · rcases stored with given | fresh'
    · exact ((room.provided c given).mono low).not_fresh fresh
    · obtain ⟨k, le, lt, rfl⟩ := fresh
      obtain ⟨k', le', lt', same⟩ := fresh'
      cases same
      omega

namespace Tidy

variable {P : Instr Op Nat → Prop} {d : Nat} {out : Cell → Prop} {given : List Cell} {rest : Nat → Gen d}

lemma seq {a b : Gen d} (first : Tidy P a out given) (second : Tidy P b out given) : Tidy P (a.seq b) out given where
  each := Gen.Each.seq first.each second.each
  writes h :=
    ⟨(first.writes h).imp fun _ writes c member =>
        (writes c member).imp id fun fresh => fresh.mono (Nat.le_refl _) (b.grows _),
      (second.writes _).imp fun _ writes c member =>
        (writes c member).imp id fun fresh => fresh.mono (a.grows h) (Nat.le_refl _)⟩
  stored := Stores.seq first.stored second.stored
  kept h room p member := by
    rcases List.mem_append.mp member with member | member
    · refine ⟨first.kept h room p member, ?_⟩
      exact room.each (a.grows h) (Nat.le_refl h) (Or.inr (Nat.le_refl _)) (second.writes _) (first.stored h p member)
    · refine ⟨?_, second.kept _ (room.later (a.grows h)) p member⟩
      exact room.each (Nat.le_refl h) (a.grows h) (Or.inl (Nat.le_refl _)) (first.writes h) (second.stored _ p member)

lemma palloc {n : Nat} (own : Nat → Cell → Prop) (constants : Nat → List Cell)
    (later : ∀ h, Tidy P (rest h) (fun c => out c ∨ own h c) (constants h ++ given))
    (owned : ∀ h c, own h c → Fresh h (h + n) c) (stored : ∀ h, ∀ c ∈ constants h, Fresh h (h + n) c)
    (apart : ∀ h, ∀ c ∈ constants h, ¬ own h c) : Tidy P (Gen.palloc n rest) out given where
  each h := (later h).each (h + n)
  writes h := by
    refine ((later h).writes (h + n)).imp fun i writes c member => ?_
    rcases writes c member with (inside | inside) | fresh
    · exact Or.inl inside
    · exact Or.inr ((owned h c inside).mono (Nat.le_refl h) ((rest h).grows _))
    · exact Or.inr (fresh.mono (Nat.le_add_right h n) (Nat.le_refl _))
  stored := by
    refine Stores.palloc fun h => (later h).stored.weaken fun c member => ?_
    rcases List.mem_append.mp member with member | member
    · exact List.mem_append_left _ (mem_workCells.mpr (stored h c member))
    · exact List.mem_append_right _ member
  kept h room := by
    refine (later h).kept (h + n) ⟨?_, ?_, ?_⟩
    · rintro c (inside | inside)
      · exact (room.written c inside).mono (Nat.le_add_right h n)
      · exact (owned h c inside).older
    · intro c member
      rcases List.mem_append.mp member with member | member
      · exact (stored h c member).older
      · exact (room.provided c member).mono (Nat.le_add_right h n)
    · rintro c member (inside | inside)
      · rcases List.mem_append.mp member with member | member
        · exact (room.written c inside).not_fresh (stored h c member)
        · exact room.apart c member inside
      · rcases List.mem_append.mp member with member | member
        · exact apart h c member inside
        · exact (room.provided c member).not_fresh (owned h c inside)

lemma work {n : Nat}
    (later : ∀ h, Tidy P (rest h) (fun c => out c ∨ Fresh h (h + n) c) given) : Tidy P (Gen.palloc n rest) out given :=
  palloc (fun h => Fresh h (h + n)) (fun _ => []) later (fun _ _ => id) (fun _ => nofun) (fun _ => nofun)

end Tidy

end Hex.Compiler
