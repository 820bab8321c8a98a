/-
# Compiler.CorrectAccess — rows, arrays, coercions and domains

Most of these forms evaluate their parts and hand the values to an out-of-line function.
Three of them read what they have written themselves: the new values of a FieldStore
replace the old ones one by one, an assignment to a container sees the old element, and the
checks of a domain see the value that is coerced.
-/
import Hex.Compiler.CorrectFlow
import Hex.Compiler.Meaning

namespace Hex.Compiler

open Theory.BlockCode

variable {w : World} {slots : SlotName → Slot} {K : List (Cell × NullableDatum)} {u a : Bool} {h n : Nat}
  {m : Machine} {c res : Cell} {xs : Env → Eval (List SqlValue)} {s : Scope} {env : Env} {W : Cell → Prop}
  {g : Scope → Cell → Gen 0} {rest : Scope → Cell → Option Cell → Option Cell → Gen 0} {x : Env → Eval SqlValue}
  {y : Env → SqlValue → Option SqlValue → Eval Unit} {us : Bool}

/-! ## Out-of-line functions -/

lemma computes_eval (helper : Helper) (cells : List Cell) (res : Cell) (m : Machine) (h : Nat) :
    StepYields w (.eval helper cells [res]) res m h (Eval.helper w helper (m.args cells) m.trace) := by
  have ran : interpStep w (.eval helper cells [res]) m =
      m.call w (.helper helper (m.args cells)) fun ds m => .next (m.setAll [res] ds) := rfl
  refine computes_call ran fun ds called => ?_
  refine Computes.last (eval_jump_next called) rfl (Frame.only _ res (returned ds)) ?_
  exact congrArg NullableDatum.sql (Machine.mem_set_self _ res (returned ds))

/-- A function of two arguments, the second of which is computed into the result cell. -/
lemma implements_pair {g1 g2 : Scope → Cell → Gen 0} {x1 x2 : Env → Eval SqlValue} (helper : Helper)
    (first : Implements w slots u false g1 x1) (second : Implements w slots u a g2 x2) :
    Implements w slots u a (fun s res => .palloc 2 fun h =>
        (g1 s (.work h)).seq <| (g2 s res).seq <| .step (.eval helper [.work h, res] [res]))
      (fun env => x1 env >>= fun x => x2 env >>= fun y => Eval.helper w helper [x, y]) := by
  intro K s res h env m context older clear relies
  simp only [Gen.relies_palloc, Gen.relies_seq] at relies
  have olderWork : Older (h + 2) (.work h) := older_work (by omega)
  refine first.andThen (context.grow (by omega)) olderWork (context.clear_work (Nat.le_refl h)) relies.1 (by omega)
    (writes_work (Nat.le_refl h)) fun x m1 frame1 held1 context1 => ?_
  have le := Nat.le_trans (by omega : h ≤ h + 2) ((g1 s (.work h)).grows (h + 2))
  refine Computes.seq (second context1 (older.mono le) clear relies.2.1)
    (fun c writes => writes.sub le fun _ => Or.inl) fun y m2 frame2 held2 => ?_
  have kept : m2.mem (.work h) = m1.mem (.work h) := frame2.kept (olderWork.grow _) (older h (Nat.le_refl h)).symm
  have called := computes_eval (w := w) helper [.work h, res] res m2
    ((g2 s res).piece ((g1 s (.work h)).piece (h + 2)).heap).heap
  simp only [Machine.args, List.map_cons, List.map_nil, kept, held1, held2] at called
  exact called.mono fun c eq => Or.inl eq

/-! ## Cells that are filled in two parts -/

lemma Machine.args_append (m : Machine) (cells cells' : List Cell) :
    m.args (cells ++ cells') = m.args cells ++ m.args cells' := List.map_append

@[simp] lemma Machine.length_args (m : Machine) (cells : List Cell) : (m.args cells).length = cells.length :=
  List.length_map _

/-- Code behind `h` leaves the values of older cells alone. -/
lemma Frame.keptArgs {out : Cell → Prop} {m' : Machine} (frame : Frame (Writes out h) m m')
    {cells : List Cell} (older : ∀ c ∈ cells, Older h c) (apart : ∀ c ∈ cells, ¬ out c) :
    m'.args cells = m.args cells :=
  List.map_congr_left fun c member => congrArg NullableDatum.sql (frame.kept (older c member) (apart c member))

lemma older_of_mem_workCells {first : Nat} (member : c ∈ workCells first n) (le : first + n ≤ h) : Older h c :=
  (mem_workCells.mp member).older.mono le

lemma not_mem_workCells {first first' n' : Nat} (member : c ∈ workCells first n)
    (le : first + n ≤ first') : c ∉ workCells first' n' :=
  fun other => (older_of_mem_workCells member le).not_fresh (mem_workCells.mp other)

lemma FillsCells.work {args : Scope → List Cell → Gen 0} {base : Nat} (fills : FillsCells w slots u args n xs)
    (context : Context w slots K u s env h m) (apart : ∀ c, s.Holds u c → Older base c) (below : base + n ≤ h)
    (relies : (args s (workCells base n)).Relies K h) :
    Computes (Writes (· ∈ workCells base n) h) m (xs env m.trace) Through
      (fun vs m' => m'.args (workCells base n) = vs ∧
        Context w slots K u s env ((args s (workCells base n)).piece h).heap m')
      (eval (interpStep w) ((args s (workCells base n)).piece h).code m) := by
  have new : ∀ c, s.Holds u c → c ∉ workCells base n := fun c holds member =>
    (apart c holds).not_fresh (mem_workCells.mp member)
  have filled := fills context (length_workCells base n) (nodup_workCells base n)
    (fun c member => older_of_mem_workCells member below) new relies
  exact (LeadsTo.through filled).imp (fun _ _ => id) fun vs m' frame held =>
    ⟨held.1, context.ran relies held.2 frame new⟩

lemma implements_call₂ {args1 args2 : Scope → List Cell → Gen 0} {k : Nat}
    {ys : Env → Eval (List SqlValue)} (helper : Helper) (fills1 : FillsCells w slots u args1 n xs)
    (fills2 : FillsCells w slots u args2 k ys) :
    Implements w slots u a (fun s res => .palloc (n + k) fun h =>
        (args1 s (workCells h n)).seq <| (args2 s (workCells (h + n) k)).seq <|
          .step (.eval helper (workCells h n ++ workCells (h + n) k) [res]))
      (fun env => xs env >>= fun x => ys env >>= fun y => Eval.helper w helper (x ++ y)) := by
  intro K s res h env m context older clear relies
  simp only [Gen.relies_palloc, Gen.relies_seq] at relies
  have le := (args1 s (workCells h n)).grows (h + (n + k))
  have own {base i : Nat} (above : h ≤ base) (r : Cell) (member : r ∈ workCells base i) : Writes (· = res) h r :=
    ((mem_workCells.mp member).mono above (Nat.le_refl _)).writes
  refine Computes.seq (fills1.work (context.grow (by omega)) context.older (by omega) relies.1)
    (fun c writes => writes.sub (by omega) (own (Nat.le_refl h))) ?_
  rintro x m1 frame1 ⟨held1, context1⟩
  refine Computes.seq (fills2.work context1 (fun c holds => (context.older c holds).mono (by omega)) (by omega)
    relies.2.1) (fun c writes => writes.sub (by omega) (own (by omega))) ?_
  rintro y m2 frame2 ⟨held2, _⟩
  have kept : m2.args (workCells h n) = m1.args (workCells h n) :=
    frame2.keptArgs (fun c member => older_of_mem_workCells member (by omega))
      fun c member => not_mem_workCells member (Nat.le_refl _)
  have called := computes_eval (w := w) helper (workCells h n ++ workCells (h + n) k) res m2
    ((args2 s (workCells (h + n) k)).piece ((args1 s (workCells h n)).piece (h + (n + k))).heap).heap
  rw [Machine.args_append, kept, held1, held2] at called
  exact called.mono fun c eq => Or.inl eq

/-! ## ROW -/

lemma genNulls_piece : ∀ (n : Nat) (cells : List Cell) (h : Nat), ((genNulls n cells).piece h).heap = h ∧
    ((genNulls n cells).piece h).constants = (cells.drop n).map (fun c => (c, nullDatum)) ∧
    ∀ m, eval (interpStep w) ((genNulls n cells).piece h).code m = .next m
  | n, [], h => ⟨by cases n <;> rfl, by cases n <;> rfl, fun m => by cases n <;> rfl⟩
  | 0, c :: cells, h => by
    obtain ⟨heap, constants, ran⟩ := genNulls_piece 0 cells h
    exact ⟨heap, congrArg ((c, nullDatum) :: ·) constants, ran⟩
  | n + 1, c :: cells, h => genNulls_piece n cells h

/-- A row: columns without an argument are NULL from the start. -/
lemma implements_row {fill : Scope → List Cell → Gen 0} {k : Nat}
    (helper : Helper) (fills : FillsCells w slots u fill n xs) :
    Implements w slots u a (fun s res => .palloc (n + k) fun h =>
        (genNulls n (workCells h (n + k))).seq <| (fill s (workCells h n)).seq <|
          .step (.eval helper (workCells h (n + k)) [res]))
      (fun env => xs env >>= fun vs => Eval.helper w helper (padNulls (n + k) vs)) := by
  intro K s res h env m context older clear relies
  simp only [Gen.relies_palloc, Gen.relies_seq] at relies
  obtain ⟨heap, constants, skips⟩ := genNulls_piece (w := w) n (workCells h (n + k)) (h + (n + k))
  obtain ⟨⟨nulls, _⟩, reliesFill, _⟩ := relies
  rw [constants, workCells_add, List.drop_left' (length_workCells h n)] at nulls
  change Computes _ m _ Through _ (eval (interpStep w) (.seq
    ((genNulls n (workCells h (n + k))).piece (h + (n + k))).code (.seq ((fill s (workCells h n)).piece
      ((genNulls n (workCells h (n + k))).piece (h + (n + k))).heap).code _)) m)
  rw [heap] at reliesFill ⊢
  refine Computes.before (skips m) (Frame.refl m) ?_
  refine Computes.seq (fills.work (context.grow (by omega)) context.older (by omega) reliesFill)
    (fun c writes => writes.sub (by omega) fun r member => (mem_workCells.mp member).writes) ?_
  rintro vs m1 frame ⟨held, context1⟩
  have rest : m1.args (workCells (h + n) k) = List.replicate k none := by
    refine List.eq_replicate_iff.mpr ⟨by simp, fun v member => ?_⟩
    obtain ⟨c, cell, rfl⟩ := List.mem_map.mp member
    exact context1.loaded (c, nullDatum) (nulls _ (List.mem_map.mpr ⟨c, cell, rfl⟩))
  have length : vs.length = n := by rw [← held, Machine.length_args, length_workCells]
  have called := computes_eval (w := w) helper (workCells h (n + k)) res m1
    ((fill s (workCells h n)).piece (h + (n + k))).heap
  rw [workCells_add, Machine.args_append, held, rest] at called
  rw [padNulls, length, Nat.add_sub_cancel_left, workCells_add]
  exact called.mono fun c eq => Or.inl eq

/-! ## FieldStore -/

/-- Code that replaces some of the values of the work cells from `base` on; it does not read the
test value of a CASE around it. -/
def Updates (w : World) (slots : SlotName → Slot) (g : Scope → Nat → Nat → Gen 0)
    (y : List SqlValue → Env → Eval (List SqlValue)) : Prop :=
  ∀ ⦃K : List (Cell × NullableDatum)⦄ ⦃s : Scope⦄ ⦃base n h : Nat⦄ ⦃env : Env⦄ ⦃m : Machine⦄,
    Context w slots K false s env h m → base + n ≤ h → (∀ c, s.Holds false c → Older base c) →
    (g s base n).Relies K h →
    Computes (Writes (· ∈ workCells base n) h) m
      (y (m.args (workCells base n)) env m.trace) Through (fun vs m' => m'.args (workCells base n) = vs)
      (eval (interpStep w) ((g s base n).piece h).code m)

lemma updates_nil : Updates w slots (fun _ _ _ => .nop) (fun fields _ => pure fields) :=
  fun _ _ _ _ _ _ _ _ _ _ _ => Computes.pure rfl rfl

lemma args_workCells_set {m' : Machine} {base i : Nat} (frame : Frame W m m')
    (apart : ∀ k, base ≤ k → k < base + n → k ≠ base + i → ¬ W (.work k)) :
    m'.args (workCells base n) = (m.args (workCells base n)).set i (m'.mem (.work (base + i))).sql := by
  refine List.ext_getElem (by simp) fun j lt lt' => ?_
  simp only [Machine.args, workCells, List.map_map, List.length_map, List.length_range'] at lt
  rw [List.getElem_set]
  simp only [Machine.args, workCells, List.map_map, List.getElem_map, List.getElem_range', Function.comp_apply,
    Nat.one_mul]
  by_cases eq : i = j
  · rw [if_pos eq, eq]
  · rw [if_neg eq, frame.mem _ (apart (base + j) (by omega) (by omega) (by omega))]

/-- A new value takes the place of the old one, which it may read. -/
lemma updates_cons {rest : Scope → Nat → Nat → Gen 0}
    {y : List SqlValue → Env → Eval (List SqlValue)} (fieldnum : Int) (value : Implements w slots u a g x)
    (inPlace : u = true → a = true) (updates : Updates w slots rest y) :
    Updates w slots (fun s base n =>
        (if fieldnum ≤ 0 ∨ fieldnum > n then Gen.nop
          else g { s with caseval := some (.work (base + (fieldnum - 1).toNat)) }
            (.work (base + (fieldnum - 1).toNat))).seq (rest s base n))
      (fun fields env =>
        if fieldnum ≤ 0 ∨ fieldnum > fields.length then y fields env
        else x { env with caseval := fields.getD (fieldnum - 1).toNat none } >>= fun v =>
          y (fields.set (fieldnum - 1).toNat v) env) := by
  intro K s base n h env m context le apart relies
  have length : (m.args (workCells base n)).length = n := by simp
  by_cases out : fieldnum ≤ 0 ∨ fieldnum > n
  · -- a system column is skipped
    simp only [if_pos out, length] at relies ⊢
    exact Computes.before rfl (Frame.refl m) (updates context le apart (Gen.relies_seq.mp relies).2)
  · simp only [if_neg out, length] at relies ⊢
    obtain ⟨i, index⟩ : ∃ i, i = (fieldnum - 1).toNat := ⟨_, rfl⟩
    rw [← index] at relies ⊢
    obtain ⟨reliesValue, reliesRest⟩ := Gen.relies_seq.mp relies
    have lt : i < n := by omega
    have older : Older h (.work (base + i)) := older_work (by omega)
    have old : (m.mem (.work (base + i))).sql = (m.args (workCells base n)).getD i none := by
      rw [List.getD_eq_getElem?_getD, List.getElem?_eq_getElem (by simpa using lt)]
      simp [Machine.args, workCells]
    have clear : Clear u a { s with caseval := some (.work (base + i)) } (.work (base + i)) :=
      ⟨fun read notInPlace => absurd ((inPlace read).symm.trans notInPlace) Bool.noConfusion,
        fun eq => apart _ (Or.inr eq) (base + i) (by omega) rfl⟩
    have first := value (context.withCaseval older fun _ => old) older clear reliesValue
    refine Computes.seq (LeadsTo.through first) ?_ ?_
    · exact fun c writes => writes.sub (Nat.le_refl h) fun r eq =>
        Or.inl (mem_workCells.mpr ⟨base + i, by omega, by omega, eq⟩)
    · rintro v m1 frame ⟨held, ran⟩
      have context1 := context.ran reliesValue ran frame fun c holds => apart c holds (base + i) (by omega)
      have later := updates context1 (Nat.le_trans le (Gen.grows _ h)) apart reliesRest
      have set := args_workCells_set (n := n) frame (i := i) fun k _ below ne written => written.elim
        (fun eq => ne (Cell.work.inj eq)) fun newer => newer (older_work (by omega))
      rw [held] at set
      rw [set] at later
      exact later.mono fun c writes => writes.sub (Gen.grows _ h) fun _ => Or.inl

lemma Machine.setAll_frame : ∀ (cells : List Cell) (ds : List NullableDatum) (m : Machine),
    (m.setAll cells ds).trace = m.trace ∧ Frame (· ∈ cells) m (m.setAll cells ds)
  | [], _, m => ⟨rfl, Frame.refl m⟩
  | c :: cells, ds, m => by
    obtain ⟨traced, frame⟩ := setAll_frame cells ds.tail (m.set c (returned ds))
    exact ⟨traced, (Frame.set List.mem_cons_self _).trans (frame.mono fun _ => List.mem_cons_of_mem c)⟩

lemma Machine.setAll_args : ∀ (cells : List Cell) (ds : List NullableDatum) (m : Machine), cells.Nodup →
    (m.setAll cells ds).args cells = (List.range cells.length).map fun i => (returned (ds.drop i)).sql
  | [], _, _, _ => rfl
  | c :: cells, ds, m, nodup => by
    obtain ⟨notIn, nodup⟩ := List.nodup_cons.mp nodup
    have frame := (setAll_frame cells ds.tail (m.set c (returned ds))).2
    have rest := setAll_args cells ds.tail (m.set c (returned ds)) nodup
    have head : ((m.set c (returned ds)).setAll cells ds.tail).mem c = returned ds := by
      rw [frame.mem c notIn, mem_set_self]
    simp only [List.length_cons, List.range_succ_eq_map, List.map_cons, List.map_map, List.drop_zero]
    simp only [args, List.map_cons, setAll, head, List.cons.injEq, true_and]
    refine rest.trans (List.map_congr_left fun i _ => ?_)
    simp only [Function.comp_apply, List.drop_tail]

lemma computes_deform (resulttype : Oid) (res : Cell) (first n : Nat) (m : Machine) (h : Nat) :
    Computes (· ∈ workCells first n) m (fieldsOf w resulttype n (m.mem res).sql m.trace) Through
      (fun vs m' => m'.args (workCells first n) = vs)
      (eval (interpStep w)
        ((Gen.step (.eval (.fieldStoreDeForm resulttype) [res] (workCells first n)) : Gen 0).piece h).code m) := by
  have ran : interpStep w (.eval (.fieldStoreDeForm resulttype) [res] (workCells first n)) m =
      m.call w (.helper (.fieldStoreDeForm resulttype) [(m.mem res).sql]) fun ds m =>
        .next (m.setAll (workCells first n) ds) := rfl
  refine computes_call ran fun ds called => ?_
  obtain ⟨traced, frame⟩ := Machine.setAll_frame (workCells first n) ds
    { m with trace := m.trace ++ [.helper (.fieldStoreDeForm resulttype) [(m.mem res).sql]] }
  refine Computes.last (eval_jump_next called) traced frame ?_
  rw [Machine.setAll_args _ _ _ (nodup_workCells first n), length_workCells]

/-- **FieldStore**: the fields of the row, the new values in their place, and the row again. -/
theorem implements_fieldStore
    {newvals : Scope → Nat → Nat → Gen 0} {y : List SqlValue → Env → Eval (List SqlValue)} (resulttype : Oid)
    (n : Nat) (arg : Implements w slots u a g x) (updates : Updates w slots newvals y) :
    Implements w slots u a (fun s res => .palloc n fun h =>
        (g s res).seq <|
        (Gen.step (.eval (.fieldStoreDeForm resulttype) [res] (workCells h n))).seq <|
        (newvals s h n).seq <|
        .step (.eval (.fieldStoreForm resulttype) (workCells h n) [res]))
      (fun env => x env >>= fun v => fieldsOf w resulttype n v >>= fun fields => y fields env >>= fun fields =>
        Eval.helper w (.fieldStoreForm resulttype) fields) := by
  intro K s res h env m context older clear relies
  simp only [Gen.relies_palloc, Gen.relies_seq] at relies
  obtain ⟨reliesArg, reliesDeform, reliesNewvals, _⟩ := relies
  have le := Nat.le_trans (Nat.le_add_right h n) ((g s res).grows (h + n))
  refine arg.behind (fun read : false = true => by cases read) (context.grow (Nat.le_add_right h n)) (older.mono (Nat.le_add_right h n)) clear
    reliesArg (Nat.le_add_right h n) (Or.inl rfl) fun v m1 frame1 held1 context1 => ?_
  subst held1
  have own (c : Cell) (member : c ∈ workCells h n) : Writes (· = res) h c := (mem_workCells.mp member).writes
  have apart : ∀ c, s.Holds false c → Older h c := fun c holds => context.older c (holds.mono fun never => by cases never)
  refine Computes.seq (LeadsTo.through (computes_deform resulttype res h n m1 _)) own ?_
  rintro fields m2 frame2 ⟨held2, ran⟩
  have context2 := context1.ran reliesDeform ran (frame2.mono fun _ => Or.inl) fun c holds member =>
    (apart c holds).not_fresh (mem_workCells.mp member)
  have updated := updates context2 ((g s res).grows (h + n)) apart reliesNewvals
  rw [held2] at updated
  refine Computes.seq updated (fun c writes => writes.sub le own) fun fields' m3 frame3 held3 => ?_
  have formed := computes_eval (w := w) (.fieldStoreForm resulttype) (workCells h n) res m3
    ((newvals s h n).piece ((g s res).piece (h + n)).heap).heap
  rw [held3] at formed
  exact formed.mono fun c eq => Or.inl eq

/-! ## Coercion through text -/

lemma work_ne {i j : Nat} (ne : i ≠ j) : Cell.work i ≠ Cell.work j := fun eq => ne (Cell.work.inj eq)

lemma computes_inputFunction {c1 c2 c3 : Cell} {infunc : Func} {str : Datum} {m0 : Machine} {op : Op}
    (typioparam : Oid)
    (ran : interpStep w op m0 = execInputFunction w res { func := infunc, args := [c1, c2, c3] } str m)
    (apart : res ≠ c1 ∧ c2 ≠ c1 ∧ c3 ≠ c1) (param : (m.mem c2).sql = some (BitVec.ofNat 64 typioparam))
    (typmod : (m.mem c3).sql = some (BitVec.ofInt 64 (-1))) :
    Computes (fun c => c = res ∨ c = c1) m (inputValue w infunc typioparam str (m.mem res).sql m.trace) Through
      (fun v m' => (m'.mem res).sql = v) (eval (interpStep w) ((Gen.step op : Gen 0).piece h).code m0) := by
  simp only [inputValue]
  by_cases calls : (!infunc.fnStrict || str != 0) = true
  · rw [execInputFunction, if_pos calls, functionCallInvoke] at ran
    rw [if_pos calls]
    obtain ⟨m1, first⟩ : ∃ m1, m1 = m.setFirst [c1, c2, c3] { value := str, isnull := (m.mem res).isnull } := ⟨_, rfl⟩
    have args : m1.args [c1, c2, c3] =
        [if (m.mem res).sql.isNone then none else some str, some (BitVec.ofNat 64 typioparam),
          some (BitVec.ofInt 64 (-1))] := by
      rw [first]
      simp only [Machine.setFirst, Machine.args, List.map_cons, List.map_nil, Machine.mem_set_self,
        Machine.mem_set_ne _ _ apart.2.1, Machine.mem_set_ne _ _ apart.2.2, param, typmod, NullableDatum.isnull_eq]
      rfl
    have frame : Frame (fun c => c = res ∨ c = c1) m m1 := first ▸ Frame.set (Or.inr rfl) _
    have kept : m1.mem res = m.mem res := first ▸ Machine.mem_set_ne _ _ apart.1
    have traced : m1.trace = m.trace := first ▸ rfl
    simp only [← first, args] at ran
    rw [← traced]
    refine Computes.started frame (computes_call ran fun ds called => ?_)
    refine Computes.last (eval_jump_next called) rfl (Frame.setValue (Or.inl rfl) _) ?_
    rw [Machine.mem_setValue_self]
    simp only [kept, NullableDatum.sql]
    cases (m.mem res).isnull <;> rfl
  · rw [execInputFunction, if_neg calls] at ran
    rw [if_neg calls]
    exact Computes.last (eval_step_next ran) rfl (Frame.refl m) rfl

lemma computes_ioCoerce {c2 c3 : Cell} {outfunc infunc : Func} {typioparam : Oid} (c0 c1 : Cell)
    (apart : res ≠ c0 ∧ c2 ≠ c0 ∧ c3 ≠ c0) (apart' : res ≠ c1 ∧ c2 ≠ c1 ∧ c3 ≠ c1)
    (param : (m.mem c2).sql = some (BitVec.ofNat 64 typioparam))
    (typmod : (m.mem c3).sql = some (BitVec.ofInt 64 (-1))) :
    Computes (fun c => c = res ∨ c = c0 ∨ c = c1) m
      (coerceThroughText w outfunc infunc typioparam (m.mem res).sql m.trace) Through
      (fun v m' => (m'.mem res).sql = v)
      (eval (interpStep w) ((Gen.step (.ioCoerce res { func := outfunc, args := [c0] }
        { func := infunc, args := [c1, c2, c3] }) : Gen 0).piece h).code m) := by
  have step : interpStep w (.ioCoerce res { func := outfunc, args := [c0] }
      { func := infunc, args := [c1, c2, c3] }) m = execIOCoerce w res { func := outfunc, args := [c0] }
        { func := infunc, args := [c1, c2, c3] } m := rfl
  cases null : (m.mem res).isnull with
  | true =>
    rw [execIOCoerce, if_pos null] at step
    have called := computes_inputFunction (h := h) typioparam step apart' param typmod
    rw [sql_of_isnull null] at called ⊢
    exact called.mono fun c => Or.imp id Or.inr
  | false =>
    rw [execIOCoerce, if_neg (by simp [null])] at step
    obtain ⟨m1, first⟩ : ∃ m1, m1 = m.setFirst [c0] { value := (m.mem res).value, isnull := false } := ⟨_, rfl⟩
    have args : m1.args [c0] = [some (m.mem res).value] := by
      rw [first]
      simp [Machine.setFirst, Machine.args]
    have frame : Frame (· = c0) m m1 := first ▸ Frame.only m c0 _
    have traced : m1.trace = m.trace := first ▸ rfl
    simp only [functionCallInvoke, ← first, args] at step
    have value := sql_of_not_isnull null
    rw [value, ← traced]
    refine Computes.started (frame.mono fun c eq => Or.inr (Or.inl eq)) (computes_call step fun ds called => ?_)
    have called := computes_inputFunction (h := h) typioparam called apart'
      (by rw [← param]; exact congrArg _ (frame.mem c2 apart.2.1))
      (by rw [← typmod]; exact congrArg _ (frame.mem c3 apart.2.2))
    have kept : m1.mem res = m.mem res := frame.mem res apart.1
    simp only [kept, value] at called
    exact called.mono fun c => Or.imp id Or.inr

lemma implements_ioCoerce (outfunc infunc : Func) (typioparam : Oid) (arg : Implements w slots u a g x) :
    Implements w slots u a (fun s res => (g s res).seq <|
        .palloc 4 fun h =>
          (Gen.store (.work (h + 2)) { value := BitVec.ofNat 64 typioparam, isnull := false }).seq <|
          (Gen.store (.work (h + 3)) { value := BitVec.ofInt 64 (-1), isnull := false }).seq <|
          .step (.ioCoerce res { func := outfunc, args := workCells h 1 }
            { func := infunc, args := workCells (h + 1) 3 }))
      (fun env => x env >>= coerceThroughText w outfunc infunc typioparam) := by
  intro K s res h env m context older clear relies
  obtain ⟨reliesArg, reliesParams⟩ := Gen.relies_seq.mp relies
  have le := (g s res).grows h
  refine arg.behind (fun read : false = true => nomatch read) context older clear reliesArg (Nat.le_refl h) (Or.inl rfl)
    fun v m1 frame held context1 => ?_
  subst held
  have param := context1.loaded _ (reliesParams.1
    (.work (((g s res).piece h).heap + 2), { value := BitVec.ofNat 64 typioparam, isnull := false })
    (by simp [Gen.palloc, Gen.seq, Gen.store]))
  have typmod := context1.loaded _ (reliesParams.1
    (.work (((g s res).piece h).heap + 3), { value := BitVec.ofInt 64 (-1), isnull := false })
    (by simp [Gen.palloc, Gen.seq, Gen.store]))
  refine Computes.before rfl (Frame.refl m1) (Computes.before rfl (Frame.refl m1) ?_)
  have notWork : ∀ k, ((g s res).piece h).heap ≤ k → res ≠ .work k := fun k above => older k (Nat.le_trans le above)
  refine Computes.mono (computes_ioCoerce (.work ((g s res).piece h).heap)
    (.work (((g s res).piece h).heap + 1)) ⟨notWork _ (Nat.le_refl _), work_ne (by omega), work_ne (by omega)⟩
    ⟨notWork _ (Nat.le_succ _), work_ne (by omega), work_ne (by omega)⟩ param typmod) ?_
  rintro c (rfl | rfl | rfl)
  · exact Or.inl rfl
  · exact writes_work le
  · exact writes_work (Nat.le_succ_of_le le)

/-! ## Subscripts -/

/-- Where subscripts end: behind the fetch if one of them is NULL. -/
def SubscriptsEnd (ok : Bool) (m' : Machine) (r : Result Machine Raised) : Prop :=
  r = if ok then .next m' else .exit 0 m'

/-- The container is in its cell, or NULL if a subscript was. -/
def SubscriptsResult (res : Cell) (x : SqlValue) (ok : Bool) (m' : Machine) : Prop :=
  (m'.mem res).sql = if ok then x else none

structure SubscriptCells (u : Bool) (s : Scope) (h : Nat) (res sub : Cell) : Prop where
  older : Older h res
  olderSub : Older h sub
  ne : sub ≠ res
  clearSub : Clear u false s sub

lemma SubscriptCells.grow {h1 : Nat} {sub : Cell} (cells : SubscriptCells u s h res sub)
    (le : h ≤ h1) : SubscriptCells u s h1 res sub :=
  { cells with older := cells.older.mono le, olderSub := cells.olderSub.mono le }

/-- The code of subscripts, when the container is in the result cell. -/
def Subscripts (w : World) (slots : SlotName → Slot) (u : Bool) (g : Scope → Cell → Cell → Gen 1)
    (y : Env → Eval Bool) : Prop :=
  ∀ ⦃K : List (Cell × NullableDatum)⦄ ⦃s : Scope⦄ ⦃res sub : Cell⦄ ⦃h : Nat⦄ ⦃env : Env⦄ ⦃m : Machine⦄,
    Context w slots K u s env h m → SubscriptCells u s h res sub → (g s res sub).Relies K h →
    Computes (Writes (fun c => c = res ∨ c = sub) h) m (y env m.trace) SubscriptsEnd
      (SubscriptsResult res (m.mem res).sql) (eval (interpStep w) ((g s res sub).piece h).code m)

lemma subscripts_nil : Subscripts w slots u (fun _ _ _ => .nop) (fun _ => pure true) :=
  fun _ _ _ _ _ _ _ _ _ _ => Computes.pure rfl rfl

lemma computes_subscript (res : Cell) {sub : Cell} (helper : Helper) (isAssignment : Bool) {v : SqlValue} (value : (m.mem sub).sql = v) :
    Computes (· = res) m (handSubscript w helper isAssignment v m.trace) SubscriptsEnd
      (fun ok m' => SubscriptsResult res (m.mem res).sql ok m' ∧ (ok = true → m'.mem = m.mem))
      (eval (interpStep w) ((Gen.jump (.sbsrefSubscript res sub helper isAssignment) [0] Gen.first_inside :
        Gen 1).piece h).code m) := by
  have ran : interpStep w (.sbsrefSubscript res sub helper isAssignment) m = m.call w (.helper helper [v]) fun _ m =>
        if (m.mem sub).isnull then
          if isAssignment then
            .fail { message := "array subscript in assignment must not be null", trace := m.trace }
          else .jump 0 (m.setNull res true)
        else .next m := value ▸ rfl
  refine computes_call ran fun ds called => ?_
  rw [NullableDatum.isnull_eq, value] at called
  cases v with
  | some d => exact Computes.last (eval_jump_next called) rfl (Frame.refl _) ⟨rfl, fun _ => rfl⟩
  | none =>
    cases isAssignment with
    | true =>
      change eval (interpStep w) _ m = _
      simp only [Option.isNone_none, if_true] at called
      simp [Gen.jump, eval, called]
    | false =>
      refine Computes.last (eval_jump_exit called rfl) rfl (Frame.only _ res _) ⟨?_, fun ok => by cases ok⟩
      exact sql_of_isnull (by simp)

lemma subscripts_cons {rest : Scope → Cell → Cell → Gen 1}
    {y : Env → Eval Bool} (helper : Helper) (isAssignment : Bool) (subscript : Implements w slots u false g x)
    (subscripts : Subscripts w slots u rest y) :
    Subscripts w slots u (fun s res sub => (Gen.inner (g s sub)).seq <|
        (Gen.jump (.sbsrefSubscript res sub helper isAssignment) [0] Gen.first_inside).seq <|
        rest s res sub)
      (fun env => x env >>= fun v => handSubscript w helper isAssignment v >>= fun ok =>
        if ok then y env else pure false) := by
  intro K s res sub h env m context cells relies
  simp only [Gen.relies_seq, Gen.relies_inner] at relies
  refine subscript.andThen context cells.olderSub cells.clearSub relies.1 (Nat.le_refl h) (Or.inl (Or.inr rfl))
    fun v m1 frame held context1 => ?_
  have kept : m1.mem res = m.mem res := frame.kept cells.older cells.ne.symm
  have handed := computes_subscript (w := w) (h := ((g s sub).piece h).heap) res helper isAssignment held
  refine Computes.bind handed (fun c eq => Or.inl (Or.inl eq)) ?_ ?_
  · intro e failed
    simp only [Gen.seq, Gen.inner, eval, failed]
  rintro (_ | _) m2 ends frame2 ⟨result, same⟩
  · have left : eval (interpStep w) _ m1 = .exit 0 m2 := ends
    simp only [Gen.seq, Gen.inner, eval, left]
    exact Computes.pure rfl result
  · have through : eval (interpStep w) _ m1 = .next m2 := ends
    simp only [Gen.seq, Gen.inner, eval, through]
    have unchanged : Frame (Writes (fun _ => False) ((g s sub).piece h).heap) m1 m2 :=
      ⟨fun c _ => congrFun (same rfl) c, frame2.slots, frame2.resultslot, frame2.pergroups⟩
    have later := subscripts (context1.ran relies.2.1 through unchanged fun _ _ => id)
      (cells.grow ((g s sub).grows h)) relies.2.2
    rw [same rfl, kept] at later
    exact later.mono fun c writes => writes.sub ((g s sub).grows h) fun _ => Or.inl

def AssignsElement (w : World) (slots : SlotName → Slot) (g : Scope → Cell → Cell → Cell → Gen 0)
    (y : Env → SqlValue → Eval SqlValue) : Prop :=
  ∀ ⦃K : List (Cell × NullableDatum)⦄ ⦃s : Scope⦄ ⦃res : Cell⦄ ⦃prev h : Nat⦄ ⦃env : Env⦄ ⦃m : Machine⦄,
    Context w slots K false s env h m → Older prev res → prev + 1 < h → (∀ c, s.Holds false c → Older prev c) →
    (g s res (.work prev) (.work (prev + 1))).Relies K h →
    Computes (Writes (· = res) prev) m (y env (m.mem res).sql m.trace) Through (fun v m' => (m'.mem res).sql = v)
      (eval (interpStep w) ((g s res (.work prev) (.work (prev + 1))).piece h).code m)

lemma assignsElement_none (container : Oid) :
    AssignsElement w slots (fun _ res _ _ => .step (.eval (.subscriptingRefFetch container) [res] [res]))
      (fun _ x => Eval.helper w (.subscriptingRefFetch container) [x]) :=
  fun _ _ res _ h _ m _ _ _ _ _ =>
    (computes_eval (.subscriptingRefFetch container) [res] res m h).mono fun _ eq => Or.inl eq

lemma computes_old {g : Gen 0} (container : Oid) (fetches : Bool) (res prev : Cell) (m : Machine) (h : Nat)
    (code : g = if fetches then .step (.eval (.subscriptingRefOld container) [res] [prev]) else .nop) :
    Computes (· = prev) m
      ((if fetches then Eval.helper w (.subscriptingRefOld container) [(m.mem res).sql] else pure none :
        Eval SqlValue) m.trace) Through
      (fun old m' => fetches = true → (m'.mem prev).sql = old) (eval (interpStep w) (g.piece h).code m) := by
  subst code
  cases fetches with
  | true =>
    exact (computes_eval (.subscriptingRefOld container) [res] prev m h).imp (fun _ _ => id) fun _ _ held _ => held
  | false => exact Computes.pure rfl nofun

lemma assignsElement_some (container : Oid) (fetches : Bool)
    (value : Implements w slots u a g x) (reads : u = true → fetches = true) :
    AssignsElement w slots (fun s res prev replace =>
        (if fetches then Gen.step (.eval (.subscriptingRefOld container) [res] [prev]) else .nop).seq <|
        (g { s with caseval := some prev } replace).seq <|
        .step (.eval (.subscriptingRefAssign container) [res, replace] [res]))
      (fun env x0 =>
        (if fetches then Eval.helper w (.subscriptingRefOld container) [x0] else pure none : Eval SqlValue) >>=
          fun old => x { env with caseval := old } >>= fun y =>
            Eval.helper w (.subscriptingRefAssign container) [x0, y]) := by
  intro K s res prev h env m context older lt apart relies
  beta_reduce at relies ⊢
  generalize code : (if fetches then Gen.step (.eval (.subscriptingRefOld container) [res] [.work prev]) else .nop :
    Gen 0) = old at relies ⊢
  simp only [Gen.relies_seq] at relies
  have first := computes_old (w := w) container fetches res (.work prev) m h code.symm
  refine Computes.seq (LeadsTo.through first) (fun c eq => eq ▸ writes_work (Nat.le_refl _)) ?_
  rintro x1 m1 frame1 ⟨held1, ran⟩
  have context1 := context.ran relies.1 ran (frame1.mono fun _ => Or.inl) fun c holds => apart c holds prev (Nat.le_refl _)
  have le : prev ≤ (old.piece h).heap := Nat.le_trans (by omega) (old.grows h)
  have clear : Clear u a { s with caseval := some (.work prev) } (.work (prev + 1)) :=
    ⟨fun _ _ eq => work_ne (by omega) (Option.some.inj eq), fun eq => apart _ (Or.inr eq) (prev + 1) (by omega) rfl⟩
  have contextOld := context1.withCaseval (b := u) ((older_work (by omega)).grow old) fun read => held1 (reads read)
  refine Computes.seq (value contextOld ((older_work lt).grow old) clear relies.2.1)
    (fun c writes => writes.sub le fun _ eq => eq ▸ writes_work (Nat.le_succ _)) fun y m2 frame2 held2 => ?_
  have kept : m2.mem res = m.mem res :=
    (frame2.kept (older.mono le) (older (prev + 1) (Nat.le_succ _))).trans (frame1.mem res (older prev (Nat.le_refl _)))
  have assigned := computes_eval (w := w) (.subscriptingRefAssign container) [res, .work (prev + 1)] res m2
    ((g { s with caseval := some (.work prev) } (.work (prev + 1))).piece (old.piece h).heap).heap
  simp only [Machine.args, List.map_cons, List.map_nil, kept, held2] at assigned
  exact assigned.mono fun c eq => Or.inl eq

/-- A fetch from NULL ends at once. -/
lemma computes_nullContainer {α : Type} {isAssignment : Bool}
    {x : SqlValue} {f : Eval α} {rest : Code Op} {how : α → Machine → Result Machine Raised → Prop}
    {post : α → Machine → Prop} {null : α} (held : (m.mem res).sql = x)
    (left : x = none → how null m (.exit 0 m) ∧ post null m)
    (goes : Computes W m (f m.trace) how post (eval (interpStep w) rest m)) :
    Computes W m ((if !isAssignment && x.isNone then pure null else f : Eval α) m.trace) how post
      (eval (interpStep w) (.seq ((if isAssignment then Gen.nop
        else Gen.jump (.jumpIfNull res) [0] Gen.first_inside : Gen 1).piece h).code rest) m) := by
  cases isAssignment with
  | true => exact Computes.before rfl (Frame.refl m) goes
  | false =>
    have step : interpStep w (.jumpIfNull res) m = if (m.mem res).isnull then .jump 0 m else .next m := rfl
    rw [NullableDatum.isnull_eq, held] at step
    cases x with
    | none =>
      obtain ⟨ends, holds⟩ := left rfl
      exact LeadsTo.leaves (eval_jump_exit step rfl) (Computes.pure ends holds)
    | some d => exact Computes.before (eval_jump_next step) (Frame.refl m) goes

lemma computes_subscripts {g : Scope → Cell → Cell → Gen 1} {y : Env → Eval Bool} {f : Eval SqlValue}
    {h0 : Nat} {sub : Cell} {rest : Code Op}
    (subscripts : Subscripts w slots us g y) (context : Context w slots K us s env h m)
    (cells : SubscriptCells us s h res sub) (clear : Clear us false s res) (relies : (g s res sub).Relies K h)
    (le : h0 ≤ h) (own : Writes (· = res) h0 sub)
    (goes : ∀ m1, (m1.mem res).sql = (m.mem res).sql →
      Context w slots K us s env ((g s res sub).piece h).heap m1 → Computes (Writes (· = res) h0) m1
        (f m1.trace) Closes (fun v m' => (m'.mem res).sql = v) (eval (interpStep w) rest m1)) :
    Computes (Writes (· = res) h0) m ((y env >>= fun ok => if !ok then pure none else f) m.trace) Closes
      (fun v m' => (m'.mem res).sql = v) (eval (interpStep w) (.seq ((g s res sub).piece h).code rest) m) := by
  refine Computes.bind (subscripts context cells relies) (fun c writes => writes.sub le fun r written =>
    written.elim Or.inl fun eq => eq ▸ own) ?_ ?_
  · intro e failed
    simp only [eval, failed]
  rintro (_ | _) m1 ends frame result
  · have left : eval (interpStep w) _ m = .exit 0 m1 := ends
    simp only [eval, left]
    exact Computes.pure (Or.inr rfl) result
  · have through : eval (interpStep w) _ m = .next m1 := ends
    simp only [eval, through]
    exact goes m1 result (context.ran relies through frame fun c holds written =>
      written.elim (clear.apart holds) (cells.clearSub.apart holds))

/-- **Subscripts**: the container, its subscripts, and the fetch or the assignment. -/
theorem implements_subscriptingRef {gu gl : Scope → Cell → Cell → Gen 1}
    {ga : Scope → Cell → Cell → Cell → Gen 0} {yu yl : Env → Eval Bool}
    {z : Env → SqlValue → Eval SqlValue} (isAssignment : Bool) (arg : Implements w slots u a g x)
    (upper : Subscripts w slots us gu yu) (lower : Subscripts w slots us gl yl)
    (reads : us = true → u = true ∧ a = false) (assigns : AssignsElement w slots ga z) :
    Implements w slots u a (fun s res => .palloc 3 fun h =>
        .block <|
          (Gen.inner (g s res)).seq <|
          (if isAssignment then Gen.nop else Gen.jump (.jumpIfNull res) [0] Gen.first_inside).seq <|
          (gu s res (.work h)).seq <|
          (gl s res (.work h)).seq <|
          .inner (ga s res (.work (h + 1)) (.work (h + 2))))
      (fun env => x env >>= fun v => if !isAssignment && v.isNone then pure none else
        yu env >>= fun ok => if !ok then pure none else
        yl env >>= fun ok => if !ok then pure none else z env v) := by
  intro K s res h env m context older clear relies
  simp only [Gen.relies_palloc, Gen.relies_block, Gen.relies_seq, Gen.relies_inner] at relies
  obtain ⟨reliesArg, _, reliesUpper, reliesLower, reliesAssign⟩ := relies
  have le := (g s res).grows (h + 3)
  have own : Writes (· = res) h (.work h) := writes_work (Nat.le_refl h)
  refine LeadsTo.block (arg.behind reads (context.grow (by omega)) (older.mono (by omega)) clear reliesArg (by omega)
    (Or.inl rfl) fun v m1 frame1 held1 context1 => ?_)
  refine computes_nullContainer held1 (fun null => ⟨Or.inr rfl, held1.trans null⟩) ?_
  generalize (if isAssignment then Gen.nop else Gen.jump (.jumpIfNull res) [0] Gen.first_inside : Gen 1) = skip at *
  have le1 := Nat.le_trans le (skip.grows _)
  have le2 := Nat.le_trans le1 ((gu s res (.work h)).grows _)
  have le3 := Nat.le_trans le2 ((gl s res (.work h)).grows _)
  have cells : SubscriptCells us s (h + 3) res (.work h) :=
    { older := older.mono (by omega), olderSub := older_work (by omega), ne := (older h (Nat.le_refl h)).symm
      clearSub := (context.weaken fun read => (reads read).1).clear_work (Nat.le_refl h) }
  refine computes_subscripts upper (context1.grow (skip.grows _)) (cells.grow le1) (clear.behind reads) reliesUpper
    (Nat.le_trans (by omega) le1) own fun m2 held2 context2 => ?_
  refine computes_subscripts lower context2 (cells.grow le2) (clear.behind reads) reliesLower
    (Nat.le_trans (by omega) le2) own fun m3 held3 context3 => ?_
  have assigned := assigns (context3.weaken fun never => by cases never) (older.mono (Nat.le_succ h)) (Nat.lt_of_lt_of_le (by omega) le3)
    (fun c holds => (context.older c (holds.mono fun never => by cases never)).mono (Nat.le_succ h)) reliesAssign
  rw [held3, held2, held1] at assigned
  exact (assigned.imp (fun _ _ => Or.inl) fun _ _ => id).mono fun c writes => writes.sub (Nat.le_succ h) fun _ => Or.inl

/-! ## Domains -/

/-- What the cells of a domain hold: `check` is the cell for the results of checks, and
`domainval` the cell whose value the checks see, as far as they are chosen. -/
structure DomainCells (u : Bool) (s : Scope) (h : Nat) (m : Machine) (res : Cell) (check domainval : Option Cell)
    (value : Option SqlValue) : Prop where
  older : Older h res
  olderCheck : ∀ c ∈ check, Older h c
  olderValue : ∀ c ∈ domainval, Older h c
  clearCheck : ∀ c ∈ check, Clear u false s c
  apart : ∀ c ∈ check, c ≠ res ∧ domainval ≠ some c
  held : domainval.map (fun c => (m.mem c).sql) = value

/-- The code of constraints, when the value is in the result cell; only the cell for the results
of checks and new cells are written. -/
def ChecksDomain (w : World) (slots : SlotName → Slot) (u : Bool)
    (g : Scope → Cell → Option Cell → Option Cell → Gen 0) (y : Env → SqlValue → Option SqlValue → Eval Unit) : Prop :=
  ∀ ⦃K : List (Cell × NullableDatum)⦄ ⦃s : Scope⦄ ⦃res : Cell⦄ ⦃check domainval : Option Cell⦄
    ⦃value : Option SqlValue⦄ ⦃h : Nat⦄ ⦃env : Env⦄ ⦃m : Machine⦄,
    Context w slots K u s env h m → DomainCells u s h m res check domainval value →
    (g s res check domainval).Relies K h →
    Computes (Writes (· ∈ check) h) m (y env (m.mem res).sql value m.trace) Through (fun _ _ => True)
      (eval (interpStep w) ((g s res check domainval).piece h).code m)

lemma checksDomain_nil : ChecksDomain w slots u (fun _ _ _ _ => .nop) (fun _ _ _ => pure ()) :=
  fun _ _ _ _ _ _ _ _ _ _ _ _ => Computes.pure rfl trivial

lemma checksDomain_notnull (typeName : String) (constrains : ChecksDomain w slots u rest y) : ChecksDomain w slots u
      (fun s res check domainval => (Gen.step (.domainNotnull res typeName)).seq (rest s res check domainval))
      (fun env x value =>
        if x.isNone then Eval.raise ("domain " ++ typeName ++ " does not allow null values") else y env x value) := by
  intro K s res check domainval value h env m context cells relies
  have step : interpStep w (.domainNotnull res typeName) m = if (m.mem res).isnull then
        .fail { message := "domain " ++ typeName ++ " does not allow null values", trace := m.trace }
      else .next m := rfl
  have later := constrains context cells (Gen.relies_seq.mp relies).2
  cases null : (m.mem res).isnull with
  | true =>
    rw [null] at step
    rw [sql_of_isnull null]
    change eval (interpStep w) _ m = _
    simp only [if_true] at step
    simp [Gen.step, Gen.seq, Gen.jump, eval, step]
  | false =>
    rw [null] at step
    rw [sql_of_not_isnull null] at later ⊢
    exact Computes.before (eval_step_next step) (Frame.refl m) later

/-- A CHECK, when the cells that it works with are chosen: `c` for its result, and `d` for the
value that it sees. -/
lemma computes_check {typeName name : String}
    (expr : Implements w slots u false g x) (constrains : ChecksDomain w slots u rest y) {d : Cell} {v : SqlValue}
    (context : Context w slots K u s env h m) (cells : DomainCells u s h m res (some c) (some d) (some v)) {a : Gen 0}
    (code : a = (g { s with domainval := some d } c).seq ((Gen.step (.domainCheck c typeName name)).seq
      (rest s res (some c) (some d))))
    (relies : a.Relies K h) :
    Computes (Writes (· = c) h) m ((x { env with domainval := v } >>= fun holds =>
        if holds.any fun d => !datumGetBool d then
          Eval.raise ("value for domain " ++ typeName ++ " violates check constraint \"" ++ name ++ "\"")
        else y env (m.mem res).sql (some v)) m.trace)
      Through (fun _ _ => True) (eval (interpStep w) (a.piece h).code m) := by
  subst code
  obtain ⟨reliesExpr, reliesRest⟩ := Gen.relies_seq.mp relies
  have clear : Clear u false s c := cells.clearCheck c rfl
  obtain ⟨ne, apart⟩ := cells.apart c rfl
  have held : (m.mem d).sql = v := Option.some.inj cells.held
  have contextCheck : Context w slots K u { s with domainval := some d } { env with domainval := v } h m := by
    refine ⟨?_, context.caseval, held, context.slots, context.loaded⟩
    rintro c' (⟨read, eq⟩ | eq)
    · exact context.older c' (Or.inl ⟨read, eq⟩)
    · exact Option.some.inj eq ▸ cells.olderValue d rfl
  have first := expr contextCheck (cells.olderCheck c rfl) ⟨clear.caseval, apart⟩ reliesExpr
  refine Computes.seq (LeadsTo.through first) (fun _ => id) ?_
  rintro holds m1 frame ⟨result, ran⟩
  have step : interpStep w (.domainCheck c typeName name) m1 = if holds.any fun d => !datumGetBool d then
        .fail
          { message := "value for domain " ++ typeName ++ " violates check constraint \"" ++ name ++ "\""
            trace := m1.trace }
      else .next m1 := by
    have same : holds.any (fun d => !datumGetBool d) = (!(m1.mem c).isnull && !datumGetBool (m1.mem c).value) := by
      rw [← result]
      cases null : (m1.mem c).isnull <;> simp [NullableDatum.sql, null]
    rw [same]
    rfl
  have keptRes : m1.mem res = m.mem res := frame.kept cells.older ne.symm
  have keptValue : m1.mem d = m.mem d := frame.kept (cells.olderValue d rfl) fun eq => apart (congrArg some eq)
  have cells1 : DomainCells u s ((g { s with domainval := some d } c).piece h).heap m1 res (some c) (some d) (some v) :=
    { cells with
      older := cells.older.grow _
      olderCheck := fun c' member => (cells.olderCheck c' member).grow _
      olderValue := fun c' member => (cells.olderValue c' member).grow _
      held := by rw [← cells.held, Option.map_some, Option.map_some, keptValue] }
  have later := constrains (context.ran reliesExpr ran frame fun _ => clear.apart) cells1 (Gen.relies_seq.mp reliesRest).2
  rw [keptRes] at later
  by_cases fails : holds.any (fun d => !datumGetBool d) = true
  · rw [if_pos fails] at step ⊢
    change eval (interpStep w) _ m1 = _
    simp [Gen.step, Gen.seq, Gen.jump, eval, step]
  · rw [if_neg fails] at step ⊢
    exact Computes.before (eval_step_next step) (Frame.refl m1) (later.mono fun c' writes =>
      writes.sub (Gen.grows _ h) fun r eq => Or.inl (Option.some.inj eq).symm)

lemma DomainCells.allocate {check domainval : Option Cell}
    {value : Option SqlValue} (context : Context w slots K u s env h m)
    (cells : DomainCells u s h m res check domainval value) (count : n = if check.isSome then 0 else 1) :
    DomainCells u s (h + n) m res (some (check.getD (.work h))) domainval value ∧
      Writes (· ∈ check) h (check.getD (.work h)) := by
  subst count
  cases check with
  | some c => exact ⟨cells, Or.inl rfl⟩
  | none =>
    have grown : Older (h + 1) (.work h) := older_work (Nat.lt_succ_self h)
    refine ⟨{ cells with
      older := cells.older.mono (Nat.le_succ h)
      olderValue := fun c member => (cells.olderValue c member).mono (Nat.le_succ h)
      olderCheck := fun c eq => Option.some.inj eq ▸ grown
      clearCheck := fun c eq => Option.some.inj eq ▸ context.clear_work (Nat.le_refl h)
      apart := ?_ }, writes_work (Nat.le_refl h)⟩
    rintro c ⟨⟩
    exact ⟨(cells.older h (Nat.le_refl h)).symm, fun eq => cells.olderValue _ eq h (Nat.le_refl h) rfl⟩

/-- **CHECK**: the value is made read-only before the first one. -/
theorem checksDomain_check (typeName name : String)
    (varlena : Bool) (expr : Implements w slots u false g x) (constrains : ChecksDomain w slots u rest y) :
    ChecksDomain w slots u (fun s res check domainval =>
        .palloc (if check.isSome then 0 else 1) fun h =>
          .palloc (if domainval.isSome || !varlena then 0 else 1) fun h' =>
            (if domainval.isSome || !varlena then Gen.nop
              else Gen.step (.makeReadonly (domainval.getD (if varlena then .work h' else res)) res)).seq <|
            (g { s with domainval := some (domainval.getD (if varlena then .work h' else res)) }
              (check.getD (.work h))).seq <|
            (Gen.step (.domainCheck (check.getD (.work h)) typeName name)).seq <|
            rest s res (some (check.getD (.work h))) (some (domainval.getD (if varlena then .work h' else res))))
      (fun env x0 value => checkedValue w varlena x0 value >>= fun v =>
        x { env with domainval := v } >>= fun holds =>
          if holds.any fun d => !datumGetBool d then
            Eval.raise ("value for domain " ++ typeName ++ " violates check constraint \"" ++ name ++ "\"")
          else y env x0 (some v)) := by
  intro K s res check domainval value h env m context cells relies
  obtain ⟨n, count⟩ : ∃ n, n = if check.isSome then 0 else 1 := ⟨_, rfl⟩
  obtain ⟨cells1, chosen⟩ := cells.allocate context count
  have context1 : Context w slots K u s env (h + n) m := context.grow (Nat.le_add_right h n)
  simp only [Gen.relies_palloc, ← count, Gen.relies_seq] at relies
  simp only [Gen.palloc, ← count]
  generalize check.getD (.work h) = c at cells1 chosen relies ⊢
  have within {h' : Nat} (le : h + n ≤ h') (c' : Cell) (writes : Writes (· = c) h' c') : Writes (· ∈ check) h c' :=
    writes.sub (Nat.le_trans (Nat.le_add_right h n) le) fun r eq => eq ▸ chosen
  obtain ⟨reliesReadonly, reliesBody⟩ := relies
  have reliesBody := Gen.relies_seq.mpr ⟨reliesBody.1, Gen.relies_seq.mpr reliesBody.2⟩
  cases domainval with
  | some d =>
    -- the value was chosen by an earlier CHECK
    have held : some (m.mem d).sql = value := cells.held
    subst held
    have checked := computes_check expr constrains context1 cells1 rfl reliesBody
    exact Computes.before rfl (Frame.refl m) (checked.mono (within (Nat.le_refl _)))
  | none =>
    have fresh : value = none := cells.held.symm
    subst fresh
    cases varlena with
    | false =>
      have cells2 : DomainCells u s (h + n) m res (some c) (some res) (some (m.mem res).sql) :=
        { cells1 with
          olderValue := fun c' eq => Option.some.inj eq ▸ cells1.older
          apart := fun c' eq => ⟨(cells1.apart c' eq).1, fun same => (cells1.apart c' eq).1 (Option.some.inj same).symm⟩
          held := rfl }
      have checked := computes_check expr constrains context1 cells2 rfl reliesBody
      exact Computes.before rfl (Frame.refl m) (checked.mono (within (Nat.le_refl _)))
    | true =>
      -- a new cell for the read-only value
      refine Computes.seq (LeadsTo.through (computes_makeReadonly (.work (h + n)) res m _))
        (fun c' eq => eq ▸ writes_work (Nat.le_add_right h n)) ?_
      rintro v m1 frame ⟨held, ran⟩
      have apart : ∀ c', Older (h + n) c' → c' ≠ .work (h + n) := fun c' older => older _ (Nat.le_refl _)
      have cells2 : DomainCells u s (h + n + 1) m1 res (some c) (some (.work (h + n))) (some v) :=
        { older := cells1.older.mono (Nat.le_succ _)
          olderCheck := fun c' eq => (cells1.olderCheck c' eq).mono (Nat.le_succ _)
          olderValue := fun c' eq => Option.some.inj eq ▸ older_work (Nat.lt_succ_self _)
          clearCheck := cells1.clearCheck
          apart := fun c' eq => ⟨(cells1.apart c' eq).1, fun same =>
            apart c' (cells1.olderCheck c' eq) (Option.some.inj same).symm⟩
          held := congrArg some held }
      have context2 := (context1.grow (Nat.le_succ _)).ran reliesReadonly ran (frame.mono fun _ => Or.inl)
        fun c' holds => apart c' (context1.older c' holds)
      have checked := computes_check expr constrains context2 cells2 rfl reliesBody
      rw [frame.mem res (apart res cells1.older)] at checked
      exact checked.mono (within (Nat.le_succ _))

/-- **Coercion to a domain**: the value, and the constraints for it. -/
theorem implements_coerceToDomain
    {gc : Scope → Cell → Option Cell → Option Cell → Gen 0} (arg : Implements w slots u a g x)
    (constrains : ChecksDomain w slots us gc y) (reads : us = true → u = true ∧ a = false) :
    Implements w slots u a (fun s res => (g s res).seq (gc s res none none))
      (fun env => x env >>= fun v => y env v none >>= fun _ => pure v) := by
  intro K s res h env m context older clear relies
  obtain ⟨reliesArg, reliesChecks⟩ := Gen.relies_seq.mp relies
  refine arg.behind reads context older clear reliesArg (Nat.le_refl h) (Or.inl rfl) fun v m1 frame held context1 => ?_
  subst held
  have cells : DomainCells us s ((g s res).piece h).heap m1 res none none none :=
    { older := older.grow _, olderCheck := nofun, olderValue := nofun, clearCheck := nofun, apart := nofun
      held := rfl }
  refine Computes.mono ((constrains context1 cells reliesChecks).map (fun _ _ => id) fun _ m2 frame2 _ => ?_) ?_
  · rw [frame2.kept (older.grow _) nofun]
  · exact fun c writes => writes.sub ((g s res).grows h) nofun

end Hex.Compiler
