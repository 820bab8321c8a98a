/-
# Compiler.Extends — the compiler appends the code with blocks

* `Extends st p st'`: between `st` and `st'` the compiler appended the flat form of
  the piece `p`, used its work cells and filled its cells.
* `OpenExtends`: the same for code whose jumps out are not adjusted yet, with their
  positions.
* `Emits`, `NotedExtends`: the compiler appended the code that a generator gives under the placeholders
  in force; `NotedExtends` for code whose jumps out were noted.
* `execInitExprRec_extends`: `execInitExprRec` appends what `gen` says.
-/
import Hex.Compiler.Code

namespace Hex.Compiler

open Theory.BlockCode

variable {sites : List Nat}

/-- The placeholders' cells while an expression is compiled. -/
def ExprState.scope (st : ExprState) : Scope :=
  { caseval := st.innermostCaseval, domainval := st.innermostDomainval }

/-- `st1` differs from `st` in errors only. -/
structure SameCode (st st1 : ExprState) : Prop where
  steps : st1.steps = st.steps
  heap : st1.heap = st.heap
  stores : st1.stores = st.stores
  scope : st1.scope = st.scope

namespace SameCode

lemma refl (st : ExprState) : SameCode st st := ⟨rfl, rfl, rfl, rfl⟩

lemma trans {st st1 st2 : ExprState} (first : SameCode st st1) (second : SameCode st1 st2) : SameCode st st2 :=
  ⟨second.steps.trans first.steps, second.heap.trans first.heap, second.stores.trans first.stores,
    second.scope.trans first.scope⟩

lemma ereport (st : ExprState) (message : String) : SameCode st (st.ereport message) := ⟨rfl, rfl, rfl, rfl⟩

lemma require (st : ExprState) (ok : Bool) (message : String) : SameCode st (st.require ok message) := by
  cases ok with
  | true => exact refl st
  | false => exact ereport st message

lemma aclcheck (f : Func) (st : ExprState) : SameCode st (aclcheck f st) := require st _ _

lemma checkFunc (f : Func) (nargs : Nat) (st : ExprState) : SameCode st (checkFunc f nargs st) :=
  ((aclcheck f st).trans (require _ _ _)).trans (require _ _ _)

lemma resume (st sub : ExprState) : SameCode st (st.resume sub) := ⟨rfl, rfl, rfl, rfl⟩

lemma execInitExprList (setup : Setup) : ∀ (args : List Node) (st : ExprState),
    SameCode st (execInitExprList setup args st)
  | [], st => by
    simp only [Compiler.execInitExprList]
    exact refl st
  | e :: rest, st => by
    simp only [Compiler.execInitExprList]
    exact (resume st _).trans (execInitExprList setup rest _)

lemma execInitFilter (setup : Setup) (filter : Option Node) (st : ExprState) :
    SameCode st (execInitFilter setup filter st) := by
  cases filter with simp only [Compiler.execInitFilter]
  | none => exact refl st
  | some e => exact resume st _

end SameCode

/-- The compiler appended `p`. -/
structure Extends {d : Nat} (st : ExprState) (p : Piece d) (st' : ExprState) : Prop where
  steps : st'.steps = st.steps ++ p.code.flatten st.steps.length []
  heap : st'.heap = p.heap
  stores : st'.stores = st.stores ++ p.stores
  scope : st'.scope = st.scope

namespace Extends

variable {d : Nat} {st st1 st' : ExprState}

lemma length {p : Piece d} (ext : Extends st p st') : st'.steps.length = st.steps.length + p.code.size := by
  rw [ext.steps, List.length_append, Code.length_flatten]

lemma nop : Extends st ((Gen.nop : Gen d).piece st.heap) st :=
  ⟨by simp [Gen.nop, Code.flatten], rfl, by simp [Gen.nop], rfl⟩

lemma push (op : Op) : Extends st ((Gen.step op : Gen d).piece st.heap) (st.push op) :=
  ⟨rfl, rfl, by simp [Gen.step, Gen.jump, ExprState.push, ExprState.exprEvalPushStep], rfl⟩

lemma pushOpen (op : Op) (labels : List Nat) (inside : ∀ k ∈ labels, k < d) :
    Extends st ((Gen.jump op labels inside).piece st.heap) (st.exprEvalPushStep op (labels.map fun _ => none)) :=
  ⟨by simp [Gen.jump, Code.flatten, ExprState.exprEvalPushStep], rfl,
    by simp [Gen.jump, ExprState.exprEvalPushStep], rfl⟩

lemma seq {a b : Gen d} (first : Extends st (a.piece st.heap) st1)
    (second : Extends st1 (b.piece st1.heap) st') : Extends st ((a.seq b).piece st.heap) st' := by
  rw [first.heap] at second
  refine ⟨?_, second.heap, ?_, second.scope.trans first.scope⟩
  · rw [second.steps, first.length, first.steps, List.append_assoc]
    rfl
  · rw [second.stores, first.stores, List.append_assoc]
    rfl

lemma palloc {n : Nat} {rest : Nat → Gen d}
    (ext : Extends (st.palloc n) ((rest st.heap).piece (st.palloc n).heap) st') :
    Extends st ((Gen.palloc n rest).piece st.heap) st' :=
  ⟨ext.steps, ext.heap, ext.stores, ext.scope⟩

lemma store (c : Cell) (value : NullableDatum) :
    Extends st ((Gen.store c value : Gen d).piece st.heap) (st.store c value) :=
  ⟨by simp [Gen.store, Code.flatten, ExprState.store], rfl, rfl, rfl⟩

lemma preset (c : Cell) (value : NullableDatum) :
    Extends st ((Gen.preset c value : Gen d).piece st.heap) (st.store c value) :=
  ⟨by simp [Gen.preset, Code.flatten, ExprState.store], rfl, rfl, rfl⟩

lemma inner {a : Gen 0} (ext : Extends st (a.piece st.heap) st') :
    Extends st ((Gen.inner a : Gen d).piece st.heap) st' :=
  ⟨ext.steps, ext.heap, ext.stores, ext.scope⟩

lemma after {p : Piece d} (same : SameCode st st1) (ext : Extends st1 p st') : Extends st p st' :=
  ⟨by rw [ext.steps, same.steps], ext.heap, by rw [ext.stores, same.stores], ext.scope.trans same.scope⟩

end Extends

/-- The compiler appended `p`; its jumps out, with the labels `outer`, are at the
positions `sites` and are not adjusted yet. -/
structure OpenExtends {d : Nat} (outer : List Nat) (st : ExprState) (p : Piece d) (st' : ExprState)
    (sites : List Nat) : Prop where
  toExtends : Extends st p st'
  sites_eq : sites = p.code.openSites 0 st.steps.length
  uniform : p.code.Uniform outer 0

namespace OpenExtends

variable {d : Nat} {st st1 st' : ExprState} {outer : List Nat}

lemma nop : OpenExtends outer st ((Gen.nop : Gen d).piece st.heap) st [] :=
  ⟨Extends.nop, rfl, trivial⟩

lemma seq {a b : Gen d} {sites1 : List Nat} (first : OpenExtends outer st (a.piece st.heap) st1 sites1)
    (second : OpenExtends outer st1 (b.piece st1.heap) st' sites) :
    OpenExtends outer st ((a.seq b).piece st.heap) st' (sites1 ++ sites) := by
  refine ⟨first.toExtends.seq second.toExtends, ?_, ?_⟩
  · rw [second.sites_eq, first.sites_eq, first.toExtends.length, first.toExtends.heap]
    rfl
  · have later := second.uniform
    rw [first.toExtends.heap] at later
    exact ⟨first.uniform, later⟩

lemma palloc {n : Nat} {rest : Nat → Gen d}
    (ext : OpenExtends outer (st.palloc n) ((rest st.heap).piece (st.palloc n).heap) st' sites) :
    OpenExtends outer st ((Gen.palloc n rest).piece st.heap) st' sites :=
  ⟨ext.toExtends.palloc, ext.sites_eq, ext.uniform⟩

lemma after {p : Piece d} (same : SameCode st st1)
    (ext : OpenExtends outer st1 p st' sites) : OpenExtends outer st p st' sites :=
  ⟨ext.toExtends.after same, by rw [ext.sites_eq, same.steps], ext.uniform⟩

/-- Code that does not leave blocks has no open jumps. -/
lemma inner {a : Gen 0} (ext : Extends st (a.piece st.heap) st') :
    OpenExtends outer st ((Gen.inner a : Gen d).piece st.heap) st' [] :=
  ⟨ext.inner, (Code.openSites_closed (a.piece st.heap).closed _).symm,
    (a.piece st.heap).closed.uniform outer⟩

lemma jump (op : Op) {outer : List Nat} (inside : ∀ k ∈ outer, k < d) (some : outer ≠ []) :
    OpenExtends outer st ((Gen.jump op outer inside).piece st.heap) (st.exprEvalPushStep op (outer.map fun _ => none))
      [(st.exprEvalPushStep op (outer.map fun _ => none)).lastStep] := by
  refine ⟨Extends.pushOpen op outer inside, ?_, Or.inr (by simp)⟩
  obtain ⟨k, member⟩ := List.exists_mem_of_ne_nil outer some
  have leaves : ¬ ∀ k ∈ outer, k < 0 := fun all => Nat.not_lt_zero k (all k member)
  simp only [Gen.jump, Code.openSites]
  rw [if_neg leaves]
  simp [ExprState.lastStep, ExprState.exprEvalPushStep]

lemma block {a : Gen 1} (ext : OpenExtends [0] st (a.piece st.heap) st' sites) :
    Extends st ((Gen.block a).piece st.heap) (st'.adjustJumps sites) := by
  refine ⟨?_, ext.toExtends.heap, ext.toExtends.stores, ext.toExtends.scope⟩
  simp only [ExprState.adjustJumps]
  rw [ext.toExtends.length, ext.toExtends.steps, ext.sites_eq]
  exact Code.patch_block ext.uniform st.steps

/-- An arm of a CASE: the jump behind the condition is adjusted at the end of the
arm, the jump behind the result stays open. -/
lemma arm {test result : Gen 0} {op : Op} {st2 : ExprState} (first : Extends st (test.piece st.heap) st1)
    (second : Extends (st1.pushJump op) (result.piece st1.heap) st2) :
    OpenExtends [0] st ((Gen.block <| (Gen.inner test).seq <| (Gen.jump op [0] Gen.first_inside).seq <|
        (Gen.inner result).seq <| .jump .jump [1] Gen.second_inside : Gen 1).piece st.heap)
      ((st2.pushJump .jump).adjustJumps [(st1.pushJump op).lastStep]) [(st2.pushJump .jump).lastStep] := by
  have start : (st1.pushJump op).steps.length = st1.steps.length + 1 := by
    simp [ExprState.pushJump, ExprState.exprEvalPushStep]
  have whole : (st2.pushJump .jump).steps = st1.steps ++ { op := op, labels := [none] } ::
      ((result.piece st1.heap).code.flatten (st1.steps.length + 1) [] ++ [{ op := .jump, labels := [none] }]) := by
    simp only [ExprState.pushJump, ExprState.exprEvalPushStep, second.steps]
    simp
  have size : (st2.pushJump .jump).steps.length =
      st.steps.length + (test.piece st.heap).code.size + (1 + ((result.piece st1.heap).code.size + 1)) := by
    rw [whole, List.length_append, first.length]
    simp
    omega
  have behind : (st2.pushJump .jump).lastStep =
      st.steps.length + (test.piece st.heap).code.size + 1 + (result.piece st1.heap).code.size := by
    rw [ExprState.lastStep, size]
    omega
  have whenstep : (st1.pushJump op).lastStep = st1.steps.length := by
    rw [ExprState.lastStep, start, Nat.add_sub_cancel]
  refine ⟨⟨?_, second.heap.trans ?_, second.stores.trans ?_, second.scope.trans first.scope⟩, ?_, ?_⟩
  · simp only [ExprState.adjustJumps]
    rw [size, whole, whenstep, patch_singleton, first.steps, List.length_append, Code.length_flatten]
    simp only [Gen.block, Gen.seq, Gen.inner, Gen.jump, Code.flatten, Code.size, ← first.heap]
    rw [Code.flatten_closed (test.piece st.heap).closed _ (some _ :: []),
      Code.flatten_closed (result.piece st1.heap).closed _ (some _ :: [])]
    simp [Nat.add_assoc]
  · rw [first.heap]
    rfl
  · change st1.stores ++ _ = _
    rw [first.stores, first.heap]
    simp [Gen.block, Gen.seq, Gen.inner, Gen.jump]
  · rw [behind, first.heap]
    simp [Gen.block, Gen.seq, Gen.inner, Gen.jump, Code.openSites,
      Code.openSites_closed ((test.piece st.heap).closed.mono (Nat.zero_le 1)),
      Code.openSites_closed ((result.piece (test.piece st.heap).heap).closed.mono (Nat.zero_le 1))]
  · exact ⟨((test.piece st.heap).closed.mono (Nat.zero_le 1)).uniform [0], Or.inl (by simp),
      ((result.piece (test.piece st.heap).heap).closed.mono (Nat.zero_le 1)).uniform [0], Or.inr rfl⟩

lemma rowCompare {a : Gen 2} (op : Op) (ext : OpenExtends [0, 1] st (a.piece st.heap) st1 sites) :
    Extends st ((Gen.block ((Gen.block a).seq (.step op)) : Gen 0).piece st.heap)
      { st1.push op with
        steps := patch [some ((st1.push op).steps.length - 1), some (st1.push op).steps.length] sites
          (st1.push op).steps } := by
  have size : (st1.push op).steps.length = st.steps.length + (a.piece st.heap).code.size + 1 := by
    rw [← ext.toExtends.length]
    simp [ExprState.push, ExprState.exprEvalPushStep]
  have whole : (st1.push op).steps = st.steps ++ ((a.piece st.heap).code.flatten st.steps.length [] ++
      [{ op := op, labels := [] }]) := by
    rw [← List.append_assoc, ← ext.toExtends.steps]
    rfl
  refine ⟨?_, ext.toExtends.heap, ext.toExtends.stores.trans ?_, ext.toExtends.scope⟩
  · have patched := Code.patch_flatten
      [some (st.steps.length + (a.piece st.heap).code.size),
        some (st.steps.length + (a.piece st.heap).code.size + 1)] []
      st.steps [{ op := op, labels := [] }] ext.uniform
    change patch _ _ _ = _
    rw [size, whole, ext.sites_eq, Nat.add_sub_cancel]
    simpa [Gen.block, Gen.seq, Gen.step, Gen.jump, Code.flatten, Nat.add_assoc] using patched
  · simp [Gen.block, Gen.seq, Gen.step, Gen.jump]

end OpenExtends

/-! ## Generators under the placeholders in force -/

/-- The compiler appended what `g` gives under the placeholders in force. -/
def Emits {d : Nat} (st : ExprState) (g : Scope → Gen d) (st' : ExprState) : Prop :=
  Extends st ((g st.scope).piece st.heap) st'

namespace Emits

variable {d : Nat} {st st1 st' : ExprState} {a b : Scope → Gen d}

lemma scope (ext : Emits st a st') : st'.scope = st.scope := Extends.scope ext

lemma nop : Emits st (fun _ => (Gen.nop : Gen d)) st := Extends.nop

lemma push (op : Scope → Op) : Emits st (fun s => (Gen.step (op s) : Gen d)) (st.push (op st.scope)) :=
  Extends.push _

lemma store (c : Cell) (value : NullableDatum) : Emits st (fun _ => (Gen.store c value : Gen d)) (st.store c value) :=
  Extends.store c value

lemma seq (first : Emits st a st1) (second : Emits st1 b st') : Emits st (fun s => (a s).seq (b s)) st' := by
  unfold Emits at second
  rw [first.scope] at second
  exact Extends.seq first second

lemma palloc {n : Nat} {rest : Scope → Nat → Gen d} (ext : Emits (st.palloc n) (fun s => rest s st.heap) st') :
    Emits st (fun s => .palloc n (rest s)) st' :=
  Extends.palloc ext

lemma ite {c : Prop} [Decidable c] {st2 : ExprState} (first : Emits st a st1) (second : Emits st b st2) :
    Emits st (fun s => if c then a s else b s) (if c then st1 else st2) := by
  split
  · exact first
  · exact second

lemma after (same : SameCode st st1) (ext : Emits st1 a st') : Emits st a st' := by
  unfold Emits at ext
  rw [same.scope, same.heap] at ext
  exact Extends.after same ext

lemma pallocAfter {n : Nat} {rest : Scope → Nat → Gen d} (same : SameCode st st1)
    (ext : Emits (st1.palloc n) (fun s => rest s st.heap) st') : Emits st (fun s => .palloc n (rest s)) st' := by
  rw [← same.heap] at ext
  exact after same (palloc ext)

/-- A value of the placeholder for the time of one expression. -/
lemma withCaseval {caseval : Option Cell} (ext : Emits { st with innermostCaseval := caseval } a st') :
    Emits st (fun s => a { s with caseval := caseval }) { st' with innermostCaseval := st.innermostCaseval } :=
  ⟨ext.steps, ext.heap, ext.stores, congrArg (Scope.mk _) (congrArg Scope.domainval ext.scope)⟩

lemma withDomainval {domainval : Option Cell} (ext : Emits { st with innermostDomainval := domainval } a st') :
    Emits st (fun s => a { s with domainval := domainval })
      { st' with innermostDomainval := st.innermostDomainval } :=
  ⟨ext.steps, ext.heap, ext.stores, congrArg (Scope.mk · _) (congrArg Scope.caseval ext.scope)⟩

end Emits

/-- The compiler appended what `g` gives and noted the positions of its jumps out, with the labels `outer`,
behind those that it had noted before. -/
def NotedExtends {d : Nat} (outer : List Nat) (st : ExprState) (adjust : List Nat) (g : Scope → Gen d)
    (built : ExprState × List Nat) : Prop :=
  ∃ sites, built.2 = adjust ++ sites ∧ OpenExtends outer st ((g st.scope).piece st.heap) built.1 sites

namespace NotedExtends

variable {d : Nat} {outer : List Nat} {st st1 st' : ExprState} {adjust : List Nat} {a b : Scope → Gen d}
  {built built' : ExprState × List Nat}

lemma scope (noted : NotedExtends outer st adjust a built) : built.1.scope = st.scope := by
  obtain ⟨_, _, ext⟩ := noted
  exact ext.toExtends.scope

lemma nop : NotedExtends outer st adjust (fun _ => (Gen.nop : Gen d)) (st, adjust) :=
  ⟨[], (List.append_nil adjust).symm, OpenExtends.nop⟩

lemma keep {g : Scope → Gen 0} (ext : Emits st g st') :
    NotedExtends outer st adjust (fun s => (.inner (g s) : Gen d)) (st', adjust) :=
  ⟨[], (List.append_nil adjust).symm, OpenExtends.inner ext⟩

lemma jump (op : Op) (inside : ∀ k ∈ outer, k < d) (some : outer ≠ []) :
    NotedExtends outer st adjust (fun _ => .jump op outer inside) (st.exprEvalPushStep op (outer.map fun _ => none),
        adjust ++ [(st.exprEvalPushStep op (outer.map fun _ => none)).lastStep]) :=
  ⟨_, rfl, OpenExtends.jump op inside some⟩

lemma leave (op : Op) : NotedExtends [0] st adjust (fun _ => .jump op [0] Gen.first_inside : Scope → Gen (d + 1))
      (st.pushJump op, adjust ++ [(st.pushJump op).lastStep]) :=
  jump op Gen.first_inside (by decide)

lemma seq (first : NotedExtends outer st adjust a built) (second : NotedExtends outer built.1 built.2 b built') :
    NotedExtends outer st adjust (fun s => (a s).seq (b s)) built' := by
  obtain ⟨sites, noted, ext⟩ := first
  obtain ⟨sites', noted', ext'⟩ := second
  rw [ext.toExtends.scope] at ext'
  exact ⟨sites ++ sites', by rw [noted', noted, List.append_assoc], ext.seq ext'⟩

lemma palloc {n : Nat} {rest : Scope → Nat → Gen d}
    (noted : NotedExtends outer (st.palloc n) adjust (fun s => rest s st.heap) built) :
    NotedExtends outer st adjust (fun s => .palloc n (rest s)) built := by
  obtain ⟨sites, positions, ext⟩ := noted
  exact ⟨sites, positions, ext.palloc⟩

lemma after (same : SameCode st st1) (noted : NotedExtends outer st1 adjust a built) :
    NotedExtends outer st adjust a built := by
  obtain ⟨sites, positions, ext⟩ := noted
  rw [same.scope, same.heap] at ext
  exact ⟨sites, positions, ext.after same⟩

lemma arm {test result : Scope → Gen 0} {op : Op} {st2 : ExprState} (first : Emits st test st1)
    (second : Emits (st1.pushJump op) result st2) :
    NotedExtends [0] st adjust (fun s => .block <| (Gen.inner (test s)).seq <| (Gen.jump op [0] Gen.first_inside).seq <|
        (Gen.inner (result s)).seq <| .jump .jump [1] Gen.second_inside : Scope → Gen 1)
      ((st2.pushJump .jump).adjustJumps [(st1.pushJump op).lastStep], adjust ++ [(st2.pushJump .jump).lastStep]) := by
  have scope : (st1.pushJump op).scope = st.scope := first.scope.trans rfl
  unfold Emits at second
  rw [scope] at second
  exact ⟨_, rfl, OpenExtends.arm first second⟩

lemma block {g : Scope → Gen 1} (noted : NotedExtends [0] st [] g (st', adjust)) :
    Emits st (fun s => .block (g s)) (st'.adjustJumps adjust) := by
  obtain ⟨sites, positions, ext⟩ := noted
  change adjust = sites at positions
  rw [positions]
  exact ext.block

end NotedExtends

lemma extends_nulls (cells : List Cell) : ∀ (n : Nat) (st : ExprState),
    Emits st (fun _ => genNulls n cells) (cells.foldl (fun st c => st.store c nullDatum) st) := by
  induction cells with
  | nil => exact fun n st => Emits.nop
  | cons c cells ih =>
    intro n st
    cases n with
    | zero => exact (Emits.store c nullDatum).seq (ih 0 (st.store c nullDatum))
    | succ n => exact Extends.seq (Extends.preset c nullDatum) (ih n (st.store c nullDatum))

lemma extends_call (f : Func) {n : Nat} {op : FuncCall → Op} {st : ExprState} {g : Scope → List Cell → Gen 0}
    {init : List Cell → ExprState → ExprState} (args : ∀ cells st, Emits st (fun s => g s cells) (init cells st)) :
    Emits st (fun s => .palloc n fun h => (g s (workCells h n)).seq (.step (op { func := f, args := workCells h n })))
      ((init (workCells st.heap n) ((checkFunc f n st).palloc n)).push
        (op { func := f, args := workCells st.heap n })) :=
  Emits.pallocAfter (SameCode.checkFunc f n st) ((args _ _).seq (Emits.push fun _ => _))

/-! ## The compiler -/

variable (setup : Setup)

mutual

/-- **`execInitExprRec` appends what `gen` says.** -/
theorem execInitExprRec_extends (n : Node) (res : Cell) (st : ExprState) :
    Emits st (fun s => gen setup n s res) (execInitExprRec setup n res st) := by
  cases n with simp only [gen, execInitExprRec]
  | var | const | param | sqlValueFunction | currentOfExpr | nextValueExpr => exact Emits.push fun _ => _
  | aggref | groupingFunc | subPlan | alternativeSubPlan =>
    exact Emits.after (SameCode.require _ _ _) (Emits.push fun _ => _)
  | windowFunc wfuncno args aggfilter =>
    refine Emits.after (SameCode.require st setup.parentIsWindowAgg "WindowFunc found in non-WindowAgg plan node") ?_
    generalize st.require setup.parentIsWindowAgg "WindowFunc found in non-WindowAgg plan node" = st1
    have counted : SameCode st1 { st1 with numfuncs := st1.numfuncs + 1 } := ⟨rfl, rfl, rfl, rfl⟩
    have compiled := (counted.trans (SameCode.execInitExprList setup args _)).trans
      (SameCode.execInitFilter setup aggfilter _)
    exact Emits.after (compiled.trans (SameCode.require _ _ _)) (Emits.push fun _ => _)
  | subscriptingRef container refexpr refupperindexpr reflowerindexpr refassgnexpr =>
    refine Emits.palloc (NotedExtends.block ?_)
    refine (NotedExtends.keep (execInitExprRec_extends refexpr res _)).seq ?_
    generalize execInitExprRec setup refexpr res (st.palloc 3) = st1
    -- a fetch from NULL ends at once
    have null : NotedExtends [0] st1 []
        (fun _ => if refassgnexpr.isSome then Gen.nop else Gen.jump (.jumpIfNull res) [0] Gen.first_inside :
          Scope → Gen 1)
        (if refassgnexpr.isSome then st1 else st1.pushJump (.jumpIfNull res),
          if refassgnexpr.isSome then []
          else [(if refassgnexpr.isSome then st1 else st1.pushJump (.jumpIfNull res)).lastStep]) := by
      cases refassgnexpr.isSome with
      | true => exact NotedExtends.nop
      | false => exact NotedExtends.leave _
    have upper := execInitSubscripts_extends refupperindexpr container res (.work st.heap) true refassgnexpr.isSome 0
    have lower := execInitSubscripts_extends reflowerindexpr container res (.work st.heap) false refassgnexpr.isSome 0
    have assign := execInitAssignment_extends refassgnexpr container res (.work (st.heap + 1)) (.work (st.heap + 2))
    exact null.seq ((NotedExtends.after ((SameCode.require _ _ _).trans (SameCode.require _ _ _)) (upper _ _)).seq
      ((lower _ _).seq (NotedExtends.keep (Emits.after (SameCode.require _ _ _) (assign _)))))
  | funcExpr f args | opExpr f args | distinctExpr f args | nullIfExpr f args =>
    exact extends_call f (execInitFuncArgs_extends args)
  | scalarArrayOpExpr f useOr scalararg arrayarg =>
    refine Emits.pallocAfter (SameCode.aclcheck f st) ((execInitExprRec_extends scalararg _ _).seq ?_)
    exact (execInitExprRec_extends arrayarg res _).seq (Emits.push fun _ => _)
  | boolExpr boolop args =>
    have allocated : (if boolop = .not then st else st.palloc 1) = st.palloc (if boolop = .not then 0 else 1) := by
      split <;> rfl
    rw [allocated]
    exact Emits.palloc (execInitBoolArgs_extends args boolop args.length res (.work st.heap) 0 _ []).block
  | fieldSelect _ _ arg | convertRowtypeExpr _ _ arg | nullTest _ _ arg | booleanTest _ arg =>
    exact (execInitExprRec_extends arg res st).seq (Emits.push fun _ => _)
  | fieldStore resulttype ncolumns arg newvals fieldnums =>
    refine Emits.palloc ((execInitExprRec_extends arg res _).seq ((Emits.push fun _ => _).seq ?_))
    exact (execInitNewvals_extends newvals fieldnums st.heap ncolumns _).seq (Emits.push fun _ => _)
  | relabelType arg => exact execInitExprRec_extends arg res st
  | coerceViaIo outfunc infunc typioparam arg =>
    refine (execInitExprRec_extends arg res st).seq (Emits.palloc ?_)
    exact (Emits.store _ _).seq ((Emits.store _ _).seq (Emits.push fun _ => _))
  | arrayCoerceExpr resultelemtype arg elemexpr =>
    refine (execInitExprRec_extends arg res st).seq ?_
    generalize execInitExprRec setup arg res st = st1
    have typed := SameCode.require st1 (resultelemtype != 0) "target type is not an array"
    generalize st1.require (resultelemtype != 0) "target type is not an array" = st2 at typed ⊢
    -- the program of the element expression starts in an empty state
    have elem : trivialSteps (execInitExprRec setup elemexpr .result st2.element).steps =
        trivialElem (gen setup elemexpr { caseval := some (.work 0), domainval := none } .result) :=
      congrArg trivialSteps (execInitExprRec_extends elemexpr .result st2.element).steps
    rw [elem]
    exact Emits.after (typed.trans (SameCode.resume _ _)) (Emits.push fun _ => _)
  | caseExpr arg varlena args defresult =>
    obtain ⟨caseval, first⟩ := execInitCaseArg_extends arg varlena st
    rw [caseval]
    refine Emits.palloc (first.seq (NotedExtends.block ?_))
    exact (execInitCaseArms_extends args _ res _ []).seq (NotedExtends.keep (execInitExprRec_extends defresult res _))
  | caseTestExpr => exact Emits.push fun s => .caseTestVal res s.caseval
  | arrayExpr elementType multidims elements =>
    exact Emits.palloc ((execInitArray_extends elements _ _).seq (Emits.push fun _ => _))
  | rowExpr rowType attrs args =>
    refine Emits.palloc ((extends_nulls _ _ _).seq ?_)
    exact (execInitRow_extends args attrs _ _).seq (Emits.push fun _ => _)
  | rowCompareExpr rctype columns =>
    obtain ⟨sites, positions, compared⟩ := execInitRowCompare_extends columns res st []
    have const : OpenExtends [0, 1] (execInitRowCompare setup columns res st []).1
        ((if columns.length = 0 then .step (.const res { value := 0, isnull := false }) else .nop : Gen 2).piece
          (execInitRowCompare setup columns res st []).1.heap)
        (if columns.length = 0 then (execInitRowCompare setup columns res st []).1.push
          (.const res { value := 0, isnull := false }) else (execInitRowCompare setup columns res st []).1) [] := by
      split
      · exact ⟨Extends.push _, by simp [Gen.step, Gen.jump, Code.openSites], Or.inl (by simp)⟩
      · exact OpenExtends.nop
    have whole := (compared.seq const).rowCompare (.rowCompareFinal res rctype)
    rw [List.append_nil] at whole
    rw [positions]
    exact whole
  | coalesceExpr args => exact (execInitCoalesce_extends args res st []).block
  | minMaxExpr greatest minmaxtype cmp args =>
    exact Emits.pallocAfter (SameCode.require _ _ _) ((execInitArray_extends args _ _).seq (Emits.push fun _ => _))
  | xmlExpr op namedArgs args =>
    refine Emits.palloc ((execInitArray_extends namedArgs _ _).seq ?_)
    exact (execInitArray_extends args _ _).seq (Emits.push fun _ => _)
  | coerceToDomain typeName varlena arg constraints =>
    exact (execInitExprRec_extends arg res st).seq
      (execInitConstraints_extends constraints typeName varlena res none none _)
  | coerceToDomainValue => exact Emits.push fun s => .domainTestVal res s.domainval

lemma execInitFuncArgs_extends : ∀ (args : List Node) (cells : List Cell) (st : ExprState),
    Emits st (fun s => genFuncArgs setup args s cells) (execInitFuncArgs setup args cells st)
  | [], _, _ | _ :: _, [], _ => by
    simp only [genFuncArgs, execInitFuncArgs]
    exact Emits.nop
  | arg :: rest, c :: cells, st => by
    simp only [genFuncArgs, execInitFuncArgs]
    cases arg.const? with
    | some con => exact (Emits.store c con).seq (execInitFuncArgs_extends rest cells _)
    | none => exact (execInitExprRec_extends arg c st).seq (execInitFuncArgs_extends rest cells _)

lemma execInitArray_extends : ∀ (args : List Node) (cells : List Cell) (st : ExprState),
    Emits st (fun s => genArray setup args s cells) (execInitArray setup args cells st)
  | [], _, _ | _ :: _, [], _ => by
    simp only [genArray, execInitArray]
    exact Emits.nop
  | e :: rest, c :: cells, st => by
    simp only [genArray, execInitArray]
    exact (execInitExprRec_extends e c st).seq (execInitArray_extends rest cells _)

lemma execInitRow_extends : ∀ (args : List Node) (attrs : List RowAttr) (cells : List Cell) (st : ExprState),
      Emits st (fun s => genRow setup args s attrs cells) (execInitRow setup args attrs cells st)
  | [], _, _, _ | _ :: _, [], _, _ | _ :: _, _ :: _, [], _ => by
    simp only [genRow, execInitRow]
    exact Emits.nop
  | e :: rest, att :: attrs, c :: cells, st => by
    simp only [genRow, execInitRow]
    refine (Emits.ite (Emits.push fun _ => _) ?_).seq (execInitRow_extends rest attrs cells _)
    exact Emits.after (SameCode.require _ _ _) (execInitExprRec_extends e c _)

lemma execInitBoolArgs_extends (args : List Node) (boolop : BoolOp) (nargs : Nat)
    (res anynull : Cell) (off : Nat) (st : ExprState) (adjust : List Nat) :
    NotedExtends [0] st adjust (fun s => genBoolArgs setup args s boolop nargs res anynull off) (execInitBoolArgs
    setup args boolop nargs res anynull off st adjust) := by
  cases args with simp only [genBoolArgs, execInitBoolArgs]
  | nil => exact NotedExtends.nop
  | cons arg rest =>
    refine (NotedExtends.keep (execInitExprRec_extends arg res st)).seq ((NotedExtends.leave _).seq ?_)
    exact execInitBoolArgs_extends rest boolop nargs res anynull (off + 1) _ _

lemma execInitCoalesce_extends (args : List Node) (res : Cell) (st : ExprState) (adjust : List Nat) :
    NotedExtends [0] st adjust (fun s => genCoalesce setup args s res) (execInitCoalesce setup args res st adjust) :=
    by
  cases args with simp only [genCoalesce, execInitCoalesce]
  | nil => exact NotedExtends.nop
  | cons e rest =>
    refine (NotedExtends.keep (execInitExprRec_extends e res st)).seq ((NotedExtends.leave _).seq ?_)
    exact execInitCoalesce_extends rest res _ _

lemma execInitCaseArg_extends (arg : Option Node) (varlena : Bool) (st : ExprState) :
    (execInitCaseArg setup arg varlena st).1 = (if arg.isSome then some (.work st.heap) else none) ∧ Emits (st.palloc
    (if arg.isSome then 1 else 0)) (fun s => genCaseArg setup arg s varlena (.work st.heap)) (execInitCaseArg setup
    arg varlena st).2 := by
  cases arg with simp only [genCaseArg, execInitCaseArg]
  | none => exact ⟨rfl, Emits.nop⟩
  | some arg =>
    refine ⟨rfl, (execInitExprRec_extends arg (.work st.heap) (st.palloc 1)).seq ?_⟩
    exact Emits.ite (Emits.push fun _ => _) Emits.nop

lemma execInitCaseArms_extends (args : List CaseWhen) (caseval : Option Cell) (res : Cell)
    (st : ExprState) (adjust : List Nat) :
    NotedExtends [0] st adjust (fun s => genCaseArms setup args s caseval res) (execInitCaseArms setup args caseval
    res st adjust) := by
  cases args with
  | nil =>
    simp only [genCaseArms, execInitCaseArms]
    exact NotedExtends.nop
  | cons entry rest =>
    obtain ⟨expr, result⟩ := entry
    simp only [genCaseArms, execInitCaseArms]
    have test := (execInitExprRec_extends expr res { st with innermostCaseval := caseval }).withCaseval
    exact (NotedExtends.arm test (execInitExprRec_extends result res _)).seq
      (execInitCaseArms_extends rest caseval res _ _)

lemma execInitRowCompare_extends (columns : List RowColumn) (res : Cell) (st : ExprState) (adjust : List Nat) :
    NotedExtends [0, 1] st adjust (fun s => genRowCompare setup columns s res)
      (execInitRowCompare setup columns res st adjust) := by
  rcases columns with _ | ⟨⟨oper, left, right⟩, rest⟩ <;> simp only [genRowCompare, execInitRowCompare]
  · exact NotedExtends.nop
  · have first := execInitExprRec_extends left
    have second := execInitExprRec_extends right
    exact NotedExtends.after (SameCode.require st (oper.proc.funcid != 0) _) (NotedExtends.palloc
      ((NotedExtends.keep (first _ _)).seq ((NotedExtends.keep (second _ _)).seq
        ((NotedExtends.jump _ Gen.both_inside (by decide)).seq (execInitRowCompare_extends rest res _ _)))))

lemma execInitSubscripts_extends (subscripts : List (Option Node)) (container : Oid) (res subscript : Cell)
    (isupper isAssignment : Bool) (i : Nat) (st : ExprState) (adjust : List Nat) :
    NotedExtends [0] st adjust
      (fun s => genSubscripts setup subscripts s container res subscript isupper isAssignment i)
      (execInitSubscripts setup subscripts container res subscript isupper isAssignment i st adjust) := by
  rcases subscripts with _ | ⟨_ | e, rest⟩ <;> simp only [genSubscripts, execInitSubscripts]
  · exact NotedExtends.nop
  · exact execInitSubscripts_extends rest container res subscript isupper isAssignment (i + 1) st adjust
  · refine (NotedExtends.keep (execInitExprRec_extends e subscript st)).seq ((NotedExtends.leave _).seq ?_)
    exact execInitSubscripts_extends rest container res subscript isupper isAssignment (i + 1) _ _

lemma execInitAssignment_extends (refassgnexpr : Option Node) (container : Oid)
    (res prev replace : Cell) (st : ExprState) :
    Emits st (fun s => genAssignment setup refassgnexpr s container res prev replace) (execInitAssignment setup
    refassgnexpr container res prev replace st) := by
  cases refassgnexpr with simp only [genAssignment, execInitAssignment]
  | none => exact Emits.push fun _ => _
  | some refassgnexpr =>
    refine (Emits.ite (Emits.push fun _ => _) Emits.nop).seq ?_
    exact (execInitExprRec_extends refassgnexpr replace _).withCaseval.seq (Emits.push fun _ => _)

lemma execInitNewvals_extends : ∀ (newvals : List Node) (fieldnums : List Int) (base ncolumns : Nat) (st : ExprState),
      Emits st (fun s => genNewvals setup newvals s fieldnums base ncolumns)
        (execInitNewvals setup newvals fieldnums base ncolumns st)
  | [], _, _, _, _ | _ :: _, [], _, _, _ => by
    simp only [genNewvals, execInitNewvals]
    exact Emits.nop
  | e :: rest, fieldnum :: fieldnums, base, ncolumns, st => by
    simp only [genNewvals, execInitNewvals]
    refine Emits.seq (Emits.ite ?_ ?_) (execInitNewvals_extends rest fieldnums base ncolumns _)
    · exact Emits.after (SameCode.ereport st _) Emits.nop
    · exact (execInitExprRec_extends e _ _).withCaseval

lemma execInitConstraints_extends (constraints : List DomainConstraint) (typeName : String) (varlena : Bool) (res : Cell)
    (check domainval : Option Cell) (st : ExprState) :
    Emits st (fun s => genConstraints setup constraints s typeName varlena res check domainval)
      (execInitConstraints setup constraints typeName varlena res check domainval st) := by
  rcases constraints with _ | ⟨_ | ⟨name, expr⟩, rest⟩ <;> simp only [genConstraints, execInitConstraints]
  · exact Emits.nop
  · exact (Emits.push fun _ => _).seq
      (execInitConstraints_extends rest typeName varlena res check domainval _)
  · have allocated : (if check.isSome then st else st.palloc 1) = st.palloc (if check.isSome then 0 else 1) := by
      split <;> rfl
    rw [allocated]
    refine Emits.palloc (Emits.palloc ?_)
    generalize check.getD (.work st.heap) = checkvalue
    generalize st.palloc (if check.isSome then 0 else 1) = st1
    generalize domainval.getD (if varlena then .work st1.heap else res) = value
    -- the value to be tested is made read-only once, if it may be an expanded object
    have tested : Emits (st1.palloc (if domainval.isSome || !varlena then 0 else 1))
        (fun _ => if domainval.isSome || !varlena then Gen.nop else Gen.step (.makeReadonly value res) : Scope → Gen 0)
        (if domainval.isSome || !varlena then st1 else (st1.palloc 1).push (.makeReadonly value res)) := by
      cases domainval.isSome || !varlena with
      | true => exact Emits.nop
      | false => exact Emits.push fun _ => _
    refine tested.seq ((execInitExprRec_extends expr checkvalue _).withDomainval.seq ?_)
    exact (Emits.push fun _ => _).seq
      (execInitConstraints_extends rest typeName varlena res (some checkvalue) (some value) _)

end

end Hex.Compiler
