/-
# Compiler.Correct — the interpreter computes the SQL value

`Implements g x`: wherever the code `g` is placed, the interpreter's run of it
follows the evaluation `x` and leaves its value in the result cell, and changes
nothing but the result cell and work cells of its own. There is one lemma for each
form of expression that says how it is put together from its parts; the induction is
`Node.implements`, in `CorrectNode`.

The compiler fills some cells once. `K` are those of the whole program, on which each part of it
relies.
-/
import Hex.Compiler.Footprint

namespace Hex.Compiler

open Theory.BlockCode

variable {res : Cell} {xs : Env → Eval (List SqlValue)}

/-! ## What code writes -/

/-- The cells `out`, and the work cells from `h` on. -/
def Writes (out : Cell → Prop) (h : Nat) (c : Cell) : Prop := out c ∨ ¬ Older h c

section Writes

variable {out out' : Cell → Prop} {h h' : Nat} {c : Cell}

lemma Writes.sub (writes : Writes out' h' c) (le : h ≤ h') (own : ∀ r, out' r → Writes out h r) : Writes out h c :=
  writes.elim (own c) fun newer => Or.inr fun older => newer (older.mono le)

lemma writes_work {k : Nat} (le : h ≤ k) : Writes out h (.work k) := Or.inr fun older => older k le rfl

lemma Fresh.writes (fresh : Fresh h h' c) : Writes out h c := Or.inr fun older => older.not_fresh fresh

/-- Code behind `h` leaves older cells alone. -/
lemma Frame.kept {m m' : Machine} (frame : Frame (Writes out h) m m') (older : Older h c) (apart : ¬ out c) :
    m'.mem c = m.mem c :=
  frame.mem c fun writes => writes.elim apart fun newer => newer older

lemma Older.grow {d : Nat} (older : Older h c) (g : Gen d) : Older (g.piece h).heap c := older.mono (g.grows h)

end Writes

/-! ## Placeholders -/

/-- The cell is read by a placeholder; `u` says whether the test value of a CASE is read. -/
def Scope.Holds (u : Bool) (s : Scope) (c : Cell) : Prop := (u = true ∧ s.caseval = some c) ∨ s.domainval = some c

lemma Scope.Holds.mono {u u' : Bool} {s : Scope} {c : Cell} (holds : s.Holds u c) (sub : u = true → u' = true) :
    s.Holds u' c :=
  holds.imp (fun read => ⟨sub read.1, read.2⟩) id

/-- A run starts with the placeholders and the cells that the compiler filled in place. -/
structure Context (w : World) (slots : SlotName → Slot) (K : List (Cell × NullableDatum)) (u : Bool) (s : Scope)
    (env : Env) (h : Nat) (m : Machine) : Prop where
  older : ∀ c, s.Holds u c → Older h c
  caseval : u = true → (match s.caseval with
    | some c => m.mem c
    | none => w.caseValue).sql = env.caseval
  domainval : (match s.domainval with
    | some c => m.mem c
    | none => w.domainValue).sql = env.domainval
  slots : m.slots = slots
  loaded : Loaded K m

/-- The result does not go into the cell of a placeholder; where `a` holds it may go into that
of the test value. -/
structure Clear (u a : Bool) (s : Scope) (res : Cell) : Prop where
  caseval : u = true → a = false → s.caseval ≠ some res
  domainval : s.domainval ≠ some res

variable {w : World} {slots : SlotName → Slot} {K : List (Cell × NullableDatum)} {u a : Bool}

lemma clear_of_not_holds {s : Scope} (apart : ¬ s.Holds u res) : Clear u a s res :=
  ⟨fun read _ eq => apart (Or.inl ⟨read, eq⟩), fun eq => apart (Or.inr eq)⟩

lemma Clear.not_holds {s : Scope} (clear : Clear u false s res) : ¬ s.Holds u res := by
  rintro (⟨read, eq⟩ | eq)
  · exact clear.caseval read rfl eq
  · exact clear.domainval eq

lemma Clear.apart {s : Scope} {c : Cell} (clear : Clear u false s res) (holds : s.Holds u c) : ¬ c = res :=
  fun eq => clear.not_holds (eq ▸ holds)

lemma Clear.mono {u' a' : Bool} {s : Scope} (clear : Clear u a s res) (sub : u' = true → u = true)
    (sup : a' = false → a = false) : Clear u' a' s res :=
  ⟨fun read apart => clear.caseval (sub read) (sup apart), clear.domainval⟩

/-- The result cell is not read by code that reads the test value only where the cell is apart
from it. -/
lemma Clear.behind {us : Bool} {s : Scope} (clear : Clear u a s res)
    (reads : us = true → u = true ∧ a = false) : Clear us false s res :=
  ⟨fun read _ => clear.caseval (reads read).1 (reads read).2, clear.domainval⟩

namespace Context

variable {s : Scope} {env : Env} {h h1 : Nat} {m m1 : Machine} {out : Cell → Prop}

lemma weaken {u' : Bool} (context : Context w slots K u s env h m) (sub : u' = true → u = true) :
    Context w slots K u' s env h m :=
  { context with older := fun c holds => context.older c (holds.mono sub), caseval := fun read => context.caseval (sub read) }

/-- Code behind `h` leaves the placeholders alone. -/
lemma after (context : Context w slots K u s env h m) (frame : Frame (Writes out h) m m1) (loaded : Loaded K m1)
    (apart : ∀ c, s.Holds u c → ¬ out c) (le : h ≤ h1) : Context w slots K u s env h1 m1 := by
  have kept {c : Cell} (holds : s.Holds u c) : m1.mem c = m.mem c := frame.kept (context.older c holds) (apart c holds)
  refine ⟨fun c holds => (context.older c holds).mono le, fun read => ?_, ?_, frame.slots.trans context.slots, loaded⟩
  · rw [← context.caseval read]
    cases at_ : s.caseval with
    | none => rfl
    | some c => exact congrArg NullableDatum.sql (kept (Or.inl ⟨read, at_⟩))
  · rw [← context.domainval]
    cases at_ : s.domainval with
    | none => rfl
    | some c => exact congrArg NullableDatum.sql (kept (Or.inr at_))

lemma ran {d : Nat} {g : Gen d} (context : Context w slots K u s env h m) (relies : g.Relies K h)
    (ran : eval (interpStep w) (g.piece h).code m = .next m1) (frame : Frame (Writes out h) m m1)
    (apart : ∀ c, s.Holds u c → ¬ out c) : Context w slots K u s env (g.piece h).heap m1 :=
  context.after frame (relies.loaded context.loaded ran) apart (g.grows h)

lemma grow (context : Context w slots K u s env h m) (le : h ≤ h1) : Context w slots K u s env h1 m :=
  { context with older := fun c holds => (context.older c holds).mono le }

/-- A work cell that is allocated now is not the cell of a placeholder. -/
lemma clear_work (context : Context w slots K u s env h m) {k : Nat} (le : h ≤ k) : Clear u a s (.work k) :=
  clear_of_not_holds fun holds => context.older _ holds k le rfl

lemma withCaseval {b : Bool} {c : Cell} {v : SqlValue} (context : Context w slots K u s env h m) (older : Older h c)
    (held : b = true → (m.mem c).sql = v) :
    Context w slots K b { s with caseval := some c } { env with caseval := v } h m := by
  refine ⟨?_, held, context.domainval, context.slots, context.loaded⟩
  rintro c' (⟨_, eq⟩ | eq)
  · exact Option.some.inj eq ▸ older
  · exact context.older c' (Or.inr eq)

end Context

/-! ## Code of expressions -/

/-- The code computes the evaluation, wherever it is placed; `u` says whether it reads the test
value of a CASE, and `a` whether it may do so from its result cell. -/
def Implements (w : World) (slots : SlotName → Slot) (u a : Bool) (g : Scope → Cell → Gen 0)
    (x : Env → Eval SqlValue) : Prop :=
  ∀ ⦃K : List (Cell × NullableDatum)⦄ ⦃s : Scope⦄ ⦃res : Cell⦄ ⦃h : Nat⦄ ⦃env : Env⦄ ⦃m : Machine⦄,
    Context w slots K u s env h m → Older h res → Clear u a s res → (g s res).Relies K h →
    Computes (Writes (· = res) h) m (x env m.trace) Through (fun v m' => (m'.mem res).sql = v)
      (eval (interpStep w) ((g s res).piece h).code m)

namespace Implements

variable {g : Scope → Cell → Gen 0} {x : Env → Eval SqlValue} {us : Bool} {s : Scope} {r : Cell} {h : Nat} {env : Env}
  {m : Machine}

lemma weaken {u' a' : Bool} (code : Implements w slots u a g x) (sub : u = true → u' = true)
    (sup : a = false → a' = false) : Implements w slots u' a' g x :=
  fun _ _ _ _ _ _ context older clear relies => code (context.weaken sub) older (clear.mono sub sup) relies

/-- Behind an expression the placeholders are in place, but for the test value where the result took its cell. -/
lemma run (code : Implements w slots u a g x) (reads : us = true → u = true ∧ a = false)
    (context : Context w slots K u s env h m) (older : Older h r) (clear : Clear u a s r) (relies : (g s r).Relies K h) :
    Computes (Writes (· = r) h) m (x env m.trace) Through
      (fun v m' => (m'.mem r).sql = v ∧ Context w slots K us s env ((g s r).piece h).heap m')
      (eval (interpStep w) ((g s r).piece h).code m) := by
  refine LeadsTo.imp (LeadsTo.through (code context older clear relies)) (fun _ _ => id) ?_
  rintro v m' frame ⟨held, ran⟩
  exact ⟨held, (context.weaken fun read => (reads read).1).ran relies ran frame fun _ => (clear.behind reads).apart⟩

variable {α : Type} {out : Cell → Prop} {h0 : Nat} {f : SqlValue → Eval α} {rest : Code Op}
  {how : α → Machine → Result Machine Raised → Prop} {post : α → Machine → Prop}

/-- An expression with the code behind it, which may read the test value only if it is still there. -/
lemma behind (code : Implements w slots u a g x) (reads : us = true → u = true ∧ a = false)
    (context : Context w slots K u s env h m) (older : Older h r) (clear : Clear u a s r) (relies : (g s r).Relies K h)
    (le : h0 ≤ h) (own : Writes out h0 r)
    (later : ∀ v m1, Frame (Writes (· = r) h) m m1 → (m1.mem r).sql = v →
      Context w slots K us s env ((g s r).piece h).heap m1 →
      Computes (Writes out h0) m1 (f v m1.trace) how post (eval (interpStep w) rest m1)) :
    Computes (Writes out h0) m ((x env >>= f) m.trace) how post
      (eval (interpStep w) (.seq ((g s r).piece h).code rest) m) :=
  Computes.seq (code.run reads context older clear relies) (fun _ writes => writes.sub le fun _ eq => eq ▸ own)
    fun v m1 frame held => later v m1 frame held.1 held.2

/-- **An expression with the code behind it.** -/
theorem andThen (code : Implements w slots u false g x) (context : Context w slots K u s env h m) (older : Older h r)
    (clear : Clear u false s r) (relies : (g s r).Relies K h) (le : h0 ≤ h) (own : Writes out h0 r)
    (later : ∀ v m1, Frame (Writes (· = r) h) m m1 → (m1.mem r).sql = v →
      Context w slots K u s env ((g s r).piece h).heap m1 →
      Computes (Writes out h0) m1 (f v m1.trace) how post (eval (interpStep w) rest m1)) :
    Computes (Writes out h0) m ((x env >>= f) m.trace) how post
      (eval (interpStep w) (.seq ((g s r).piece h).code rest) m) :=
  code.behind (fun read => ⟨read, rfl⟩) context older clear relies le own later

end Implements

/-! ## Steps -/

section Steps

variable {exec : Op → Machine → Flow Machine Raised} {op : Op} {m m' : Machine} {d h : Nat} {labels : List Nat}
  {k : List NullableDatum → Machine → Flow Machine Raised}

lemma eval_step_next (ran : exec op m = .next m') : eval exec ((Gen.step op : Gen d).piece h).code m = .next m' := by
  simp [Gen.step, Gen.jump, eval, ran]

lemma eval_jump_next {inside : ∀ k ∈ labels, k < d} (ran : exec op m = .next m') :
    eval exec ((Gen.jump op labels inside).piece h).code m = .next m' := by
  simp [Gen.jump, eval, ran]

lemma eval_jump_exit {inside : ∀ k ∈ labels, k < d} {i k : Nat}
    (ran : exec op m = .jump i m') (label : labels[i]? = some k) :
    eval exec ((Gen.jump op labels inside).piece h).code m = .exit k m' := by
  simp [Gen.jump, eval, ran, label]

/-- A step that makes a call follows the call; `m` is the machine that the step has made before. -/
lemma LeadsTo.call {α : Type} {F : Machine → Machine → Prop} {m0 : Machine} {c : Call}
    {f : List NullableDatum → Eval α} {inside : ∀ i ∈ labels, i < d} {how : α → Machine → Result Machine Raised → Prop}
    {post : α → Machine → Prop} (ran : exec op m0 = m.call w c k)
    (earlier : ∀ m', F { m with trace := m.trace ++ [c] } m' → F m m')
    (later : ∀ ds, exec op m0 = k ds { m with trace := m.trace ++ [c] } →
      LeadsTo F { m with trace := m.trace ++ [c] } (f ds (m.trace ++ [c])) how post
        (eval exec ((Gen.jump op labels inside).piece h).code m0)) :
    LeadsTo F m ((Eval.call w c >>= f) m.trace) how post (eval exec ((Gen.jump op labels inside).piece h).code m0) := by
  change LeadsTo F m (Eval.bind (Eval.call w c) f m.trace) how post _
  simp only [Machine.call] at ran
  simp only [Eval.bind, Eval.call]
  cases answered : w.answer m.trace c with
  | error message =>
    rw [answered] at ran
    change eval exec _ m0 = _
    simp [Gen.jump, eval, ran]
  | ok ds =>
    rw [answered] at ran
    exact LeadsTo.started earlier (later ds ran)

lemma computes_call {α : Type} {W : Cell → Prop} {m0 : Machine} {c : Call} {f : List NullableDatum → Eval α}
    {inside : ∀ i ∈ labels, i < d} {how : α → Machine → Result Machine Raised → Prop}
    {post : α → Machine → Prop} (ran : exec op m0 = m.call w c k)
    (later : ∀ ds, exec op m0 = k ds { m with trace := m.trace ++ [c] } →
      Computes W { m with trace := m.trace ++ [c] } (f ds (m.trace ++ [c])) how post
        (eval exec ((Gen.jump op labels inside).piece h).code m0)) :
    Computes W m ((Eval.call w c >>= f) m.trace) how post (eval exec ((Gen.jump op labels inside).piece h).code m0) :=
  LeadsTo.call ran (fun _ => (Frame.traced _).trans) later

end Steps

/-- The step puts the value of an evaluation into its result cell, and writes nothing else. -/
abbrev StepYields (w : World) (op : Op) (res : Cell) (m : Machine) (h : Nat) (x : Answer SqlValue) : Prop :=
  Computes (· = res) m x Through (fun v m' => (m'.mem res).sql = v)
    (eval (interpStep w) ((Gen.step op : Gen 0).piece h).code m)

/-! ## Leaves -/

lemma implements_load {op : Cell → Op} (d : NullableDatum)
    (ran : ∀ res m, interpStep w (op res) m = .next (m.set res d)) :
    Implements w slots u a (fun _ res => .step (op res)) (fun _ => pure d.sql) := by
  intro K s res h env m _ _ _ _
  refine Computes.last (eval_step_next (ran res m)) rfl (Frame.set (Or.inl rfl) d) ?_
  rw [Machine.mem_set_self]

lemma implements_const (con : NullableDatum) :
    Implements w slots u a (fun _ res => .step (.const res con)) (fun _ => pure con.sql) :=
  implements_load con fun _ _ => rfl

lemma implements_caseTest :
    Implements w slots true a (fun s res => .step (.caseTestVal res s.caseval)) (fun env => pure env.caseval) := by
  intro K s res h env m context _ _ _
  refine Computes.last (eval_step_next rfl) rfl (Frame.set (Or.inl rfl) _) ?_
  rw [Machine.mem_set_self]
  exact context.caseval rfl

lemma implements_domainTest :
    Implements w slots u a (fun s res => .step (.domainTestVal res s.domainval)) (fun env => pure env.domainval) := by
  intro K s res h env m context _ _ _
  refine Computes.last (eval_step_next rfl) rfl (Frame.set (Or.inl rfl) _) ?_
  rw [Machine.mem_set_self]
  exact context.domainval

lemma implements_helper (helper : Helper) : Implements w slots u a (fun _ res => .step (.eval helper [] [res]))
      (fun _ => Eval.call w (.helper helper []) >>= fun ds => pure (returned ds).sql) := by
  intro K s res h env m _ _ _ _
  have ran : interpStep w (.eval helper [] [res]) m =
      m.call w (.helper helper []) fun ds m => .next (m.setAll [res] ds) := rfl
  refine computes_call ran fun ds called => ?_
  refine Computes.last (eval_jump_next called) rfl (Frame.set (Or.inl rfl) (returned ds)) ?_
  exact congrArg NullableDatum.sql (Machine.mem_set_self _ res (returned ds))

lemma implements_var (v : Var) :
    Implements w slots u a (fun _ res => .step (varOpcode v res)) (fun _ => varValue w slots v) := by
  by_cases whole : v.varattno = 0
  · simpa only [varOpcode, varValue, if_pos whole] using implements_helper (.wholeRowVar v)
  · by_cases system : v.varattno ≤ 0
    · simpa only [varOpcode, varValue, if_neg whole, if_pos system] using
        implements_helper (.sysVar v.varno v.varattno)
    · intro K s res h env m context _ _ _
      simp only [varOpcode, varValue, if_neg whole, if_neg system]
      refine Computes.last (eval_step_next rfl) rfl (Frame.set (Or.inl rfl) _) ?_
      rw [Machine.mem_set_self, context.slots]

/-! ## Functions -/

def FillsCells (w : World) (slots : SlotName → Slot) (u : Bool) (g : Scope → List Cell → Gen 0) (n : Nat)
    (x : Env → Eval (List SqlValue)) : Prop :=
  ∀ ⦃K : List (Cell × NullableDatum)⦄ ⦃s : Scope⦄ ⦃cells : List Cell⦄ ⦃h : Nat⦄ ⦃env : Env⦄ ⦃m : Machine⦄,
    Context w slots K u s env h m → cells.length = n → cells.Nodup → (∀ c ∈ cells, Older h c) →
    (∀ c, s.Holds u c → c ∉ cells) → (g s cells).Relies K h →
    Computes (Writes (· ∈ cells) h) m (x env m.trace) Through (fun vs m' => m'.args cells = vs)
      (eval (interpStep w) ((g s cells).piece h).code m)

lemma fillsCells_nil : FillsCells w slots u (fun _ _ => .nop) 0 (fun _ => pure []) := by
  intro K s cells h env m _ length _ _ _ _
  rw [List.eq_nil_of_length_eq_zero length]
  exact Computes.pure rfl rfl

lemma fillsCells_cons {g : Scope → Cell → Gen 0} {rest : Scope → List Cell → Gen 0} {n : Nat}
    {x : Env → Eval SqlValue} (all : Scope → List Cell → Gen 0)
    (cons : ∀ s c cells, all s (c :: cells) = (g s c).seq (rest s cells))
    (head : Implements w slots u false g x) (tail : FillsCells w slots u rest n xs) :
    FillsCells w slots u all (n + 1) (fun env => do
      let v ← x env
      let vs ← xs env
      pure (v :: vs)) := by
  intro K s cells h env m context length nodup older apart relies
  obtain ⟨c, cells, rfl⟩ := List.exists_cons_of_length_eq_add_one length
  rw [cons] at relies ⊢
  obtain ⟨reliesHead, reliesTail⟩ := Gen.relies_seq.mp relies
  obtain ⟨fresh, nodup⟩ := List.nodup_cons.mp nodup
  obtain ⟨olderHead, older⟩ := List.forall_mem_cons.mp older
  have clear : Clear u false s c := clear_of_not_holds fun holds => apart c holds List.mem_cons_self
  refine head.andThen context olderHead clear reliesHead (Nat.le_refl h) (Or.inl List.mem_cons_self)
    fun v m1 frame held context1 => ?_
  have filled := tail context1 (by simpa using length) nodup (fun c' member => (older c' member).grow _)
    (fun c' eq member => apart c' eq (List.mem_cons_of_mem c member)) reliesTail
  refine Computes.mono (filled.map (fun _ _ ran => ran) fun vs m' frame' values => ?_) fun c' writes =>
    writes.sub ((g s c).grows h) fun _ member => Or.inl (List.mem_cons_of_mem c member)
  have kept : m'.mem c = m1.mem c := frame'.kept (olderHead.grow _) fresh
  simp only [Machine.args, List.map_cons, kept, held]
  exact congrArg _ values

lemma implements_store (con : NullableDatum) :
    Implements w slots u a (fun _ res => .store res con) (fun _ => pure con.sql) := by
  intro K s res h env m context _ _ relies
  exact Computes.pure rfl (context.loaded (res, con) (relies.1 _ (by simp [Gen.store])))

lemma computes_funcOpcode (setup : Setup) (res : Cell) (f : Func) (cells : List Cell) (m : Machine) (h : Nat) :
    StepYields w (funcOpcode setup res { func := f, args := cells }) res m h (f.apply w (m.args cells) m.trace) := by
  have strict : (f.fnStrict && decide (cells.length > 0)) = true → interpStep w
      (funcOpcode setup res { func := f, args := cells }) m =
        execFuncExprStrict w res { func := f, args := cells } m := by
    intro is
    simp only [funcOpcode, is, if_true]
    split <;> rfl
  have plain : (f.fnStrict && decide (cells.length > 0)) = false → interpStep w
      (funcOpcode setup res { func := f, args := cells }) m = execFuncExpr w res { func := f, args := cells } m := by
    intro isNot
    simp only [funcOpcode, isNot]
    split <;> rfl
  have call : interpStep w (funcOpcode setup res { func := f, args := cells }) m =
      execFuncExpr w res { func := f, args := cells } m →
      StepYields w (funcOpcode setup res { func := f, args := cells }) res m h
      (Eval.function w f (m.args cells) m.trace) := by
    intro ran
    refine computes_call (ran.trans rfl) fun ds called => ?_
    exact Computes.last (eval_jump_next called) rfl (Frame.only _ res (returned ds))
      (congrArg NullableDatum.sql (Machine.mem_set_self _ res (returned ds)))
  have nulls := anyArgNull_eq m cells
  simp only [Func.apply]
  cases null : f.fnStrict && (m.args cells).any Option.isNone with
  | true =>
    -- a strict function with a NULL argument is not called
    obtain ⟨isStrict, anyNull⟩ := Bool.and_eq_true_iff.mp null
    have args : (f.fnStrict && decide (cells.length > 0)) = true := by
      cases cells with
      | nil => simp [Machine.args] at anyNull
      | cons c rest => simp [isStrict]
    have ran : interpStep w (funcOpcode setup res { func := f, args := cells }) m = .next (m.setNull res true) := by
      rw [strict args, execFuncExprStrict, nulls, anyNull, if_pos rfl]
    refine Computes.last (eval_step_next ran) rfl (Frame.only m res _) ?_
    exact sql_of_isnull (by simp)
  | false =>
    refine call ?_
    cases args : f.fnStrict && decide (cells.length > 0) with
    | false => exact plain args
    | true =>
      have noNull : (m.args cells).any Option.isNone = false := by
        rwa [(Bool.and_eq_true_iff.mp args).1, Bool.true_and] at null
      rw [strict args, execFuncExprStrict, nulls, noNull]
      rfl

lemma implements_call {args : Scope → List Cell → Gen 0} {n : Nat}
    {op : Cell → List Cell → Op} {f : List SqlValue → Eval SqlValue} (fills : FillsCells w slots u args n xs)
    (step : ∀ res cells m h, cells.length = n → StepYields w (op res cells) res m h (f (m.args cells) m.trace)) :
    Implements w slots u a
      (fun s res => .palloc n fun h => (args s (workCells h n)).seq (.step (op res (workCells h n))))
      (fun env => xs env >>= f) := by
  intro K s res h env m context older clear relies
  simp only [Gen.relies_palloc, Gen.relies_seq] at relies
  have filled := fills (context.grow (Nat.le_add_right h n)) (length_workCells h n) (nodup_workCells h n)
    (fun c member => (mem_workCells.mp member).older)
    (fun c holds member => (context.older c holds).not_fresh (mem_workCells.mp member)) relies.1
  refine Computes.seq filled ?_ fun vs m1 frame values => ?_
  · exact fun c writes => writes.sub (Nat.le_add_right h n) fun _ member => (mem_workCells.mp member).writes
  · subst values
    exact (step res (workCells h n) m1 _ (length_workCells h n)).mono fun c eq => Or.inl eq

/-! ## Comparisons of two values -/

lemma computes_truth {α : Type} {W : Cell → Prop} {m : Machine} {v : SqlValue} {f : Option Bool → Eval α}
    {trace : List Call} {how : α → Machine → Result Machine Raised → Prop} {post : α → Machine → Prop}
    {r : Result Machine Raised} (each : ∀ b, v = boolSql b → Computes W m (f b trace) how post r) :
    Computes W m ((Eval.truth v >>= f) trace) how post r := by
  change Computes W m (Eval.bind (Eval.truth v) f trace) how post r
  cases v with
  | none => exact each none rfl
  | some d =>
    simp only [Eval.truth]
    by_cases isFalse : d = 0
    · rw [if_pos isFalse]
      exact each (some false) (congrArg some isFalse)
    · rw [if_neg isFalse]
      by_cases isTrue : d = 1
      · rw [if_pos isTrue]
        exact each (some true) (congrArg some isTrue)
      · rw [if_neg isTrue]
        trivial

lemma datumGetBool_of_boolSql {d : NullableDatum} {b : Bool} (value : d.sql = boolSql (some b)) :
    d.isnull = false ∧ d.value = boolGetDatum b ∧ datumGetBool d.value = b := by
  obtain ⟨null, eq⟩ := NullableDatum.sql_eq_some.mp value
  exact ⟨null, eq, by rw [eq, datumGetBool_boolGetDatum]⟩

lemma computes_equality {op : Op} {f : Func} {x y : Datum} {c0 c1 : Cell} {m : Machine} {h : Nat}
    {k : NullableDatum → Machine → Flow Machine Raised} {result : Option Bool → SqlValue}
    (ran : interpStep w op m = functionCallInvoke w { func := f, args := [c0, c1] } m k)
    (value0 : (m.mem c0).sql = some x) (value1 : (m.mem c1).sql = some y)
    (ends : ∀ d b m1, m1.mem = m.mem → d.sql = boolSql b → ∃ m', k d m1 = .next m' ∧ m'.trace = m1.trace ∧
      Frame (· = res) m1 m' ∧ (m'.mem res).sql = result b) :
    StepYields w op res m h
      ((Eval.function w f [some x, some y] >>= fun v => Eval.truth v >>= fun b => pure (result b)) m.trace) := by
  have args : m.args [c0, c1] = [some x, some y] := by simp [Machine.args, value0, value1]
  rw [functionCallInvoke, args] at ran
  rw [Eval.function_bind]
  refine computes_call ran fun ds called => computes_truth fun b eq => ?_
  obtain ⟨m', next, traced, frame, held⟩ := ends (returned ds) b
    { m with trace := m.trace ++ [.function f [some x, some y]] } rfl eq
  exact Computes.last (eval_jump_next (called.trans next)) traced frame held

lemma computes_execDistinct {negate : Bool} {op : Op} {f : Func} {c0 c1 : Cell} {m : Machine} {h : Nat}
    {x : SqlValue → SqlValue → Eval SqlValue}
    (step : interpStep w op m = execDistinct w negate res { func := f, args := [c0, c1] } m)
    (nulls : x none none = pure (boolSql (some !negate))) (left : ∀ v, x (some v) none = pure (boolSql (some negate)))
    (right : ∀ v, x none (some v) = pure (boolSql (some negate)))
    (values : (m.mem c0).isnull = false → (m.mem c1).isnull = false →
      StepYields w op res m h (x (some (m.mem c0).value) (some (m.mem c1).value) m.trace)) :
    StepYields w op res m h (x (m.mem c0).sql (m.mem c1).sql m.trace) := by
  have stored {b : Bool} (ran : interpStep w op m = .next (m.set res { value := boolGetDatum b, isnull := false })) :
      StepYields w op res m h ((pure (boolSql (some b)) : Eval SqlValue) m.trace) :=
    Computes.last (eval_step_next ran) rfl (Frame.only m res _) (by simp [boolSql])
  cases null0 : (m.mem c0).isnull <;> cases null1 : (m.mem c1).isnull <;> simp only [execDistinct, null0, null1] at step
  · rw [sql_of_not_isnull null0, sql_of_not_isnull null1]
    exact values null0 null1
  · rw [sql_of_not_isnull null0, sql_of_isnull null1, left]
    exact stored step
  · rw [sql_of_isnull null0, sql_of_not_isnull null1, right]
    exact stored step
  · rw [sql_of_isnull null0, sql_of_isnull null1, nulls]
    exact stored step

lemma computes_distinct (res : Cell) (f : Func) (c0 c1 : Cell) (m : Machine) (h : Nat) :
    StepYields w (.distinct res { func := f, args := [c0, c1] }) res m h
      (isDistinct w f (m.mem c0).sql (m.mem c1).sql m.trace) := by
  have step : interpStep w (.distinct res { func := f, args := [c0, c1] }) m =
      execDistinct w true res { func := f, args := [c0, c1] } m := rfl
  refine computes_execDistinct step rfl (fun _ => rfl) (fun _ => rfl) fun null0 null1 => ?_
  simp only [execDistinct, null0, null1, Bool.and_self, Bool.or_self, Bool.false_eq_true, if_false, if_true] at step
  refine computes_equality step (sql_of_not_isnull null0) (sql_of_not_isnull null1)
    fun d b m1 _ value => ⟨_, rfl, rfl, Frame.only m1 res _, ?_⟩
  rw [Machine.mem_set_self]
  cases b with
  | none =>
    have null := NullableDatum.sql_eq_none.mp value
    simp [NullableDatum.sql, null, boolSql, not3]
  | some b =>
    obtain ⟨null, _, truth⟩ := datumGetBool_of_boolSql value
    simp [NullableDatum.sql, null, truth, boolSql, not3]

lemma computes_nullif (res : Cell) (f : Func) (c0 c1 : Cell) (m : Machine) (h : Nat) :
    StepYields w (.nullif res { func := f, args := [c0, c1] }) res m h
      (nullIf w f (m.mem c0).sql (m.mem c1).sql m.trace) := by
  have step : interpStep w (.nullif res { func := f, args := [c0, c1] }) m =
      execNullif w res { func := f, args := [c0, c1] } m := rfl
  cases null0 : (m.mem c0).isnull with
  | true =>
    rw [sql_of_isnull null0]
    simp only [execNullif, null0] at step
    exact Computes.last (eval_step_next step) rfl (Frame.only m res _)
      (by rw [Machine.mem_set_self, sql_of_isnull null0])
  | false =>
    cases null1 : (m.mem c1).isnull with
    | true =>
      rw [sql_of_not_isnull null0, sql_of_isnull null1]
      simp only [execNullif, null0, null1] at step
      exact Computes.last (eval_step_next step) rfl (Frame.only m res _)
        (by rw [Machine.mem_set_self, sql_of_not_isnull null0])
    | false =>
      rw [sql_of_not_isnull null0, sql_of_not_isnull null1]
      simp only [execNullif, null0, null1, Bool.not_false, Bool.and_self, if_true] at step
      refine computes_equality step (sql_of_not_isnull null0) (sql_of_not_isnull null1) fun d b m1 same value => ?_
      cases b with
      | none =>
        have null := NullableDatum.sql_eq_none.mp value
        refine ⟨_, if_neg (by simp [null]), rfl, Frame.only m1 res _, ?_⟩
        rw [Machine.mem_set_self, same, sql_of_not_isnull null0]
        rfl
      | some b =>
        obtain ⟨null, _, truth⟩ := datumGetBool_of_boolSql value
        cases b with
        | true =>
          refine ⟨_, if_pos (by simp [null, truth]), rfl, Frame.only m1 res _, ?_⟩
          rw [Machine.mem_set_self]
          rfl
        | false =>
          refine ⟨_, if_neg (by simp [null, truth]), rfl, Frame.only m1 res _, ?_⟩
          rw [Machine.mem_set_self, same, sql_of_not_isnull null0]
          rfl

end Hex.Compiler
