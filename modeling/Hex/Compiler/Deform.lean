/-
# Compiler.Deform — columns are deformed before they are read

A program starts with a deforming step for every slot of which `get_last_attnums_walker` has
noted a column. The walker and the compiler go through trees separately, and the walker stops
at aggregates, window functions and GROUPING.

* `walker_eq`: the walker notes the Vars of a tree, no more and no less.
* `build_deforms`: whenever a run is about to read a column, a deforming step for more columns
  of that slot has been executed, or the slot is always virtual; so the column is valid.
-/
import Hex.Compiler.Jumps

namespace Hex.Compiler

open Theory.BlockCode

/-! ## The walker -/

namespace LastAttnumInfo

def last (info : LastAttnumInfo) : SlotName → Nat
  | .inner => info.lastInner
  | .outer => info.lastOuter
  | .scan => info.lastScan

def noteAll (info : LastAttnumInfo) (vars : List Var) : LastAttnumInfo := vars.foldl note info

@[simp] lemma noteAll_nil (info : LastAttnumInfo) : info.noteAll [] = info := rfl

@[simp] lemma noteAll_append (info : LastAttnumInfo) (a b : List Var) :
    info.noteAll (a ++ b) = (info.noteAll a).noteAll b := List.foldl_append

lemma note_last (info : LastAttnumInfo) (v : Var) : v.varattno.toNat ≤ (info.note v).last v.varno := by
  unfold note
  cases v.varno <;> exact Nat.le_max_right _ _

lemma le_note (info : LastAttnumInfo) (v : Var) (slot : SlotName) : info.last slot ≤ (info.note v).last slot := by
  unfold note
  cases v.varno <;> cases slot <;> first | exact Nat.le_max_left _ _ | exact Nat.le_refl _

lemma le_noteAll (vars : List Var) (slot : SlotName) :
    ∀ info : LastAttnumInfo, info.last slot ≤ (info.noteAll vars).last slot := by
  induction vars with
  | nil => exact fun info => (Nat.le_refl _)
  | cons v rest ih => exact fun info => Nat.le_trans (info.le_note v slot) (ih (info.note v))

lemma noteAll_last {vars : List Var} {v : Var} (member : v ∈ vars) :
    ∀ info : LastAttnumInfo, v.varattno.toNat ≤ (info.noteAll vars).last v.varno := by
  induction vars with
  | nil => exact absurd member List.not_mem_nil
  | cons u rest ih =>
    intro info
    rcases List.mem_cons.mp member with rfl | later
    · exact Nat.le_trans (info.note_last v) (le_noteAll rest v.varno (info.note v))
    · exact ih later (info.note u)

end LastAttnumInfo

open LastAttnumInfo

mutual

/-- **The walker notes the Vars of a tree.** -/
theorem walker_eq (n : Node) (info : LastAttnumInfo) : getLastAttnumsWalker n info = info.noteAll n.vars := by
  cases n with simp only [getLastAttnumsWalker, Node.vars, noteAll_append]
  | var v => rfl
  | subscriptingRef _ refexpr refupperindexpr reflowerindexpr refassgnexpr =>
    rw [walkOption_eq refassgnexpr, walker_eq refexpr, walkSubscripts_eq reflowerindexpr,
      walkSubscripts_eq refupperindexpr]
  | funcExpr _ args | opExpr _ args | distinctExpr _ args | nullIfExpr _ args | boolExpr _ args | rowExpr _ _ args
  | coalesceExpr args | minMaxExpr _ _ _ args | alternativeSubPlan _ args | arrayExpr _ _ args => exact walkList_eq args info
  | scalarArrayOpExpr _ _ scalararg arrayarg | arrayCoerceExpr _ scalararg arrayarg =>
    rw [walker_eq arrayarg, walker_eq scalararg]
  | subPlan _ testexpr args => rw [walkList_eq args, walkOption_eq testexpr]
  | fieldSelect _ _ arg | relabelType arg | coerceViaIo _ _ _ arg | convertRowtypeExpr _ _ arg | nullTest _ _ arg
  | booleanTest _ arg | coerceToDomain _ _ arg _ => exact walker_eq arg info
  | fieldStore _ _ arg newvals _ => rw [walkList_eq newvals, walker_eq arg]
  | caseExpr arg _ args defresult => rw [walker_eq defresult, walkArms_eq args, walkOption_eq arg]
  | rowCompareExpr _ columns => rw [walkRightArgs_eq columns, walkLeftArgs_eq columns]
  | xmlExpr _ namedArgs args => rw [walkList_eq args, walkList_eq namedArgs]
  | const | param | aggref | groupingFunc | windowFunc | caseTestExpr | sqlValueFunction | coerceToDomainValue
  | currentOfExpr | nextValueExpr => rfl

lemma walkList_eq : ∀ (args : List Node) (info : LastAttnumInfo), walkList args info = info.noteAll (listVars args)
  | [], info => by simp [walkList, listVars]
  | e :: rest, info => by
    simp only [walkList, listVars, noteAll_append]
    rw [walker_eq e, walkList_eq rest]

lemma walkOption_eq : ∀ (arg : Option Node) (info : LastAttnumInfo),
    walkOption arg info = info.noteAll (optionVars arg)
  | none, info => by simp [walkOption, optionVars]
  | some e, info => by
    simp only [walkOption, optionVars]
    exact walker_eq e info

lemma walkSubscripts_eq : ∀ (subscripts : List (Option Node)) (info : LastAttnumInfo),
    walkSubscripts subscripts info = info.noteAll (subscriptsVars subscripts)
  | [], info => by simp [walkSubscripts, subscriptsVars]
  | none :: rest, info => by
    simp only [walkSubscripts, subscriptsVars]
    exact walkSubscripts_eq rest info
  | some e :: rest, info => by
    simp only [walkSubscripts, subscriptsVars, noteAll_append]
    rw [walker_eq e, walkSubscripts_eq rest]

lemma walkArms_eq : ∀ (arms : List CaseWhen) (info : LastAttnumInfo),
    walkArms arms info = info.noteAll (armsVars arms)
  | [], info => by simp [walkArms, armsVars]
  | .mk expr result :: rest, info => by
    simp only [walkArms, armsVars, noteAll_append]
    rw [walker_eq expr, walker_eq result, walkArms_eq rest]

lemma walkLeftArgs_eq : ∀ (columns : List RowColumn) (info : LastAttnumInfo),
    walkLeftArgs columns info = info.noteAll (leftVars columns)
  | [], info => by simp [walkLeftArgs, leftVars]
  | .mk _ left _ :: rest, info => by
    simp only [walkLeftArgs, leftVars, noteAll_append]
    rw [walker_eq left, walkLeftArgs_eq rest]

lemma walkRightArgs_eq : ∀ (columns : List RowColumn) (info : LastAttnumInfo),
    walkRightArgs columns info = info.noteAll (rightVars columns)
  | [], info => by simp [walkRightArgs, rightVars]
  | .mk _ _ right :: rest, info => by
    simp only [walkRightArgs, rightVars, noteAll_append]
    rw [walker_eq right, walkRightArgs_eq rest]

end

lemma walkPertrans_eq (pertrans : List PerTrans) : ∀ info : LastAttnumInfo,
    walkPertrans pertrans info = info.noteAll (pertrans.flatMap PerTrans.vars) := by
  induction pertrans with
  | nil => exact fun info => rfl
  | cons p rest ih =>
    intro info
    rw [walkPertrans, ih, walkOption_eq, walkList_eq, walkList_eq]
    simp only [List.flatMap_cons, PerTrans.vars, noteAll_append]

/-! ## Deforming steps -/

/-- The slots that are known to be virtual when a program is built. -/
def Source.virtual (setup : Setup) : Source → SlotName → Bool
  | .groupingEqual lvirtual _ _, .inner => lvirtual
  | .groupingEqual _ rvirtual _, .outer => rvirtual
  | _, slot => setup.alwaysVirtual slot

def Source.last : Source → SlotName → Nat
  | .groupingEqual _ _ _, .scan => 0
  | .groupingEqual _ _ cols, _ => maxAtt cols
  | .element _, _ => 0
  | src, slot => (LastAttnumInfo.zero.noteAll src.vars).last slot

section Fetches

variable {setup : Setup} {off heap lastVar : Nat} {slot : SlotName}

lemma genFetch_ops (virtual : Bool) :
    (((genFetch virtual slot lastVar).piece heap).code.flatten off []).map Instr.op =
      if virtual then [] else [.fetchSome slot lastVar] := by
  cases virtual <;> rfl

lemma genSlot_ops : (((genSlot setup slot lastVar).piece heap).code.flatten off []).map Instr.op =
      if lastVar > 0 then if setup.alwaysVirtual slot then [] else [.fetchSome slot lastVar] else [] := by
  unfold genSlot
  split
  · exact genFetch_ops _
  · rfl

def Source.fetchOps (setup : Setup) (src : Source) : List Op :=
  (((src.fetches setup).piece src.heap).code.flatten 0 []).map Instr.op

lemma seq_ops (a b : Gen 0) : (((a.seq b).piece heap).code.flatten off []).map Instr.op =
      ((a.piece heap).code.flatten off []).map Instr.op ++
        ((b.piece (a.piece heap).heap).code.flatten (off + (a.piece heap).code.size) []).map Instr.op :=
  List.map_append

lemma genSlots_ops (info : LastAttnumInfo) {op : Op} :
    op ∈ (((genSlots setup info).piece heap).code.flatten off []).map Instr.op ↔
      ∃ slot, setup.alwaysVirtual slot = false ∧ info.last slot > 0 ∧ op = .fetchSome slot (info.last slot) := by
  have one (slot : SlotName) (lastVar : Nat) :
      (op ∈ if lastVar > 0 then if setup.alwaysVirtual slot then [] else [.fetchSome slot lastVar] else []) ↔
        setup.alwaysVirtual slot = false ∧ lastVar > 0 ∧ op = .fetchSome slot lastVar := by
    by_cases read : lastVar > 0
    · cases setup.alwaysVirtual slot <;> simp [read]
    · simp [read]
  rw [genSlots, seq_ops, seq_ops, List.mem_append, List.mem_append, genSlot_ops, genSlot_ops, genSlot_ops, one, one,
    one]
  constructor
  · rintro (inner | outer | scan)
    · exact ⟨.inner, inner⟩
    · exact ⟨.outer, outer⟩
    · exact ⟨.scan, scan⟩
  · rintro ⟨slot, needed⟩
    cases slot with
    | inner => exact Or.inl needed
    | outer => exact Or.inr (Or.inl needed)
    | scan => exact Or.inr (Or.inr needed)

/-- A slot of which columns are read is deformed, unless it is always virtual. -/
lemma Source.mem_fetchOps {src : Source} (real : src.virtual setup slot = false) (read : 0 < src.last slot) :
    .fetchSome slot (src.last slot) ∈ src.fetchOps setup := by
  have slots (info : LastAttnumInfo) (same : src.last slot = info.last slot)
      (fetches : src.fetches setup = genSlots setup info) (virtual : src.virtual setup slot = setup.alwaysVirtual slot) :
      .fetchSome slot (src.last slot) ∈ src.fetchOps setup := by
    rw [Source.fetchOps, fetches, genSlots_ops]
    exact ⟨slot, virtual ▸ real, same ▸ read, by rw [same]⟩
  cases src with
  | expr node =>
    refine slots _ ?_ rfl rfl
    rw [walkList_eq, listVars, listVars, List.append_nil]
    rfl
  | qual | projection =>
    refine slots _ ?_ rfl rfl
    rw [walkList_eq]
    rfl
  | check conditions =>
    refine slots _ ?_ rfl rfl
    rw [walkList_eq, listVars, listVars, List.append_nil, makeAndsExplicit_vars]
    rfl
  | element elemexpr => exact absurd read (Nat.lt_irrefl 0)
  | aggTrans phase pertrans =>
    refine slots _ ?_ rfl rfl
    rw [walkPertrans_eq]
    rfl
  | groupingEqual lvirtual rvirtual cols =>
    rw [Source.fetchOps, Source.fetches, seq_ops, List.mem_append, genFetch_ops, genFetch_ops]
    cases slot with
    | inner =>
      have left : lvirtual = false := real
      rw [left]
      exact Or.inl (List.mem_singleton.mpr rfl)
    | outer =>
      have right : rvirtual = false := real
      rw [right]
      exact Or.inr (List.mem_singleton.mpr rfl)
    | scan => exact absurd read (Nat.lt_irrefl 0)

def IsFetch (op : Op) : Prop := ∃ slot lastVar, op = .fetchSome slot lastVar

lemma Source.fetchOps_isFetch (src : Source) : ∀ op ∈ src.fetchOps setup, IsFetch op := by
  intro op member
  have slots (info : LastAttnumInfo) (inside : op ∈ (((genSlots setup info).piece 0).code.flatten 0 []).map Instr.op) :
      IsFetch op := by
    obtain ⟨slot, _, _, eq⟩ := (genSlots_ops info).mp inside
    exact ⟨slot, _, eq⟩
  cases src with
  | element elemexpr => exact absurd member List.not_mem_nil
  | groupingEqual lvirtual rvirtual cols =>
    rw [Source.fetchOps, Source.fetches, seq_ops, List.mem_append, genFetch_ops, genFetch_ops] at member
    have one (virtual : Bool) (slot : SlotName)
        (inside : op ∈ if virtual then [] else [Op.fetchSome slot (maxAtt cols)]) : IsFetch op := by
      cases virtual with
      | true => exact absurd inside List.not_mem_nil
      | false => exact ⟨slot, _, List.mem_singleton.mp inside⟩
    exact member.elim (one lvirtual .inner) (one rvirtual .outer)
  | expr | qual | check | projection | aggTrans => exact slots _ member

end Fetches

/-! ## Steps that read a column -/

/-- The column that a step reads is one that the program deforms. -/
def Covered (last : SlotName → Nat) (i : Instr Op Nat) : Prop :=
  ∀ slot a, i.op.column = some (slot, a) → a < last slot

lemma admits_covered (last : SlotName → Nat) : Admits (Covered last) := by
  intro op labels _ none slot a some
  rw [none] at some
  cases some

lemma reads_covered {last : SlotName → Nat} {v : Var} (noted : v.varattno.toNat ≤ last v.varno) :
    Reads (Covered last) v := by
  refine ⟨fun res slot a reads => ?_, fun pos _ slot a reads => ?_⟩
  · simp only [varOpcode] at reads
    split at reads
    · cases reads
    · split at reads
      · cases reads
      · cases reads
        omega
  · cases reads
    omega

lemma le_maxAtt {cols : List GroupColumn} {col : GroupColumn} (member : col ∈ cols) :
    col.keyColIdx ≤ maxAtt cols := by
  have grows (cols : List GroupColumn) : ∀ start : Nat,
      start ≤ cols.foldl (fun maxatt col => max maxatt col.keyColIdx) start := by
    induction cols with
    | nil => exact fun start => (Nat.le_refl _)
    | cons x rest ih => exact fun start => Nat.le_trans (Nat.le_max_left _ _) (ih _)
  have reached : ∀ start : Nat, col.keyColIdx ≤ cols.foldl (fun maxatt col => max maxatt col.keyColIdx) start := by
    induction cols with
    | nil => exact absurd member List.not_mem_nil
    | cons x rest ih =>
      intro start
      rcases List.mem_cons.mp member with rfl | later
      · exact Nat.le_trans (Nat.le_max_right _ _) (grows rest _)
      · exact ih later _
  exact reached 0

/-- The Vars that the walker does not see: those of CHECK expressions, and of the element
expressions of array coercions. -/
def Source.hiddenVars : Source → List Var
  | .element elemexpr => elemexpr.vars ++ elemexpr.checkVars
  | src => src.checkVars

lemma Source.hidden_checkVars {src : Source} (hidden : src.hiddenVars = []) : src.checkVars = [] := by
  cases src with
  | element elemexpr => exact (List.append_eq_nil_iff.mp hidden).2
  | _ => exact hidden

lemma Source.reads_vars {src : Source} (hidden : src.hiddenVars = []) : ReadsAll (Covered src.last) src.vars := by
  have noted (same : ∀ slot, src.last slot = (LastAttnumInfo.zero.noteAll src.vars).last slot) :
      ReadsAll (Covered src.last) src.vars := by
    intro v member
    apply reads_covered
    rw [same]
    exact noteAll_last member .zero
  cases src with
  | element elemexpr =>
    intro v member
    have none : elemexpr.vars = [] := (List.append_eq_nil_iff.mp hidden).1
    rw [Source.vars, none] at member
    exact absurd member List.not_mem_nil
  | groupingEqual lvirtual rvirtual cols => exact fun v member => absurd member List.not_mem_nil
  | expr | qual | check | projection | aggTrans => exact noted fun _ => rfl

/-- Every step that reads a column reads one that the program deforms. -/
lemma Source.body_covered (setup : Setup) {src : Source} (hidden : src.hiddenVars = [])
    (user : ∀ col ∈ src.keys, 0 < col.keyColIdx) : (src.body setup).Each (Covered src.last) := by
  apply src.body_each (admits_covered _) setup (Source.reads_vars hidden)
  · rw [Source.hidden_checkVars hidden]
    exact readsAll_nil
  · intro col member res slot named slot' a reads
    cases reads
    cases src with
    | groupingEqual lvirtual rvirtual cols =>
      have pos := user col member
      have bound := le_maxAtt member
      cases slot with
      | scan => exact absurd rfl named
      | _ => exact Nat.lt_of_lt_of_le (Nat.sub_one_lt (Nat.ne_of_gt pos)) bound
    | _ => exact absurd member List.not_mem_nil

lemma Source.program_split (setup : Setup) (src : Source) : ∃ rest : List Step,
    (src.program setup).code.flatten 0 [] =
      ((src.fetches setup).piece src.heap).code.flatten 0 [] ++ (rest ++ [{ op := .done, labels := [] }]) ∧
    ∀ last, (src.body setup).Each (Covered last) → ∀ i ∈ rest, ∀ slot a, i.op.column = some (slot, a) → a < last slot := by
  refine ⟨_, by rw [src.program_steps setup, Source.gen, ← List.append_assoc]; rfl, ?_⟩
  intro last each i member slot a reads
  obtain ⟨j, covered, sameOp, _⟩ := Code.each_flatten (each _) _ [] i member
  exact covered slot a (sameOp ▸ reads)

/-! ## Runs -/

section Runs

variable {w : World} {steps : List Step} {start m : Machine} {ops : List Op} {pc : Nat}

lemma interpStep_fetchSome {slot : SlotName} {lastVar : Nat} {m' : Machine}
    (flow : interpStep w (.fetchSome slot lastVar) m = .next m') : lastVar ≤ (m'.slots slot).nvalid := by
  change slotGetsomeattrs w slot lastVar m = .next m' at flow
  unfold slotGetsomeattrs at flow
  split at flow
  · unfold Machine.call at flow
    split at flow
    · cases flow
    · cases flow
      simp [Machine.setSlot]
  · rename_i enough
    cases flow
    exact Nat.not_lt.mp enough

/-- On the way of a run the columns stay valid, and those of the deforming steps that were
executed have become so. -/
lemma path_valid (path : Path (interpStep w) steps start ops pc m) :
    (∀ slot, (start.slots slot).nvalid ≤ (m.slots slot).nvalid) ∧
      ∀ slot lastVar, .fetchSome slot lastVar ∈ ops → lastVar ≤ (m.slots slot).nvalid := by
  induction path with
  | start => exact ⟨fun _ => (Nat.le_refl _), fun _ _ member => absurd member List.not_mem_nil⟩
  | @next ops pc m m' i before here flow ih =>
    have advances := interpStep_advances w i.op m
    rw [flow] at advances
    refine ⟨fun slot => Nat.le_trans (ih.1 slot) (advances slot), fun slot lastVar member => ?_⟩
    rcases List.mem_append.mp member with old | new
    · exact Nat.le_trans (ih.2 slot lastVar old) (advances slot)
    · rw [← List.mem_singleton.mp new] at flow
      exact interpStep_fetchSome flow
  | @jump ops pc j t m m' i before here flow label ih =>
    have advances := interpStep_advances w i.op m
    rw [flow] at advances
    refine ⟨fun slot => Nat.le_trans (ih.1 slot) (advances.2 slot), fun slot lastVar member => ?_⟩
    rcases List.mem_append.mp member with old | new
    · exact Nat.le_trans (ih.2 slot lastVar old) (advances.2 slot)
    · -- deforming steps do not jump
      rw [← List.mem_singleton.mp new] at flow
      exact absurd (interpStep_jump flow) (Nat.not_lt_zero _)

/-- **Columns are deformed before they are read.** For every program of the builders and every
run of it: when a step that reads column `a` of a slot is about to be executed, a deforming
step for more than `a` columns of the slot has been executed, or the slot is always virtual;
and where the columns of virtual slots are valid, `a` is below the number of valid columns. -/
theorem build_deforms (setup : Setup) (src : Source) (st : ExprState) (built : src.build setup = some st)
    (hidden : src.hiddenVars = []) (user : ∀ col ∈ src.keys, 0 < col.keyColIdx) (w : World) (start m : Machine)
    (ops : List Op) (pc : Nat) (path : Path (interpStep w) st.steps start ops pc m) (step : Step)
    (here : st.steps[pc]? = some step) (slot : SlotName) (a : Nat) (reads : step.op.column = some (slot, a)) :
    ((∃ lastVar, a < lastVar ∧ .fetchSome slot lastVar ∈ ops) ∨ src.virtual setup slot = true) ∧
    ((∀ slot, src.virtual setup slot = true → src.last slot ≤ (start.slots slot).nvalid) →
      a < (m.slots slot).nvalid) := by
  obtain ⟨rest, split, covered⟩ := src.program_split setup
  rw [(build_isProgram setup built).steps, split] at path here
  generalize fetched : ((src.fetches setup).piece src.heap).code.flatten 0 [] = first at path here
  have fetches : ∀ i ∈ first, IsFetch i.op := by
    intro i member
    apply @Source.fetchOps_isFetch setup src
    rw [Source.fetchOps, fetched]
    exact List.mem_map_of_mem member
  -- the step is behind the deforming steps
  have behind : first.length ≤ pc := by
    by_contra inside
    rw [List.getElem?_append_left (Nat.not_le.mp inside)] at here
    obtain ⟨_, _, eq⟩ := fetches step (List.mem_of_getElem? here)
    rw [eq] at reads
    cases reads
  have inside : step ∈ rest := by
    rw [List.getElem?_append_right behind] at here
    rcases List.mem_append.mp (List.mem_of_getElem? here) with inside | done
    · exact inside
    · rw [List.mem_singleton.mp done] at reads
      cases reads
  have below : a < src.last slot := covered src.last (Source.body_covered setup hidden user) step inside slot a reads
  have executed : ∀ i ∈ first.take pc, i.op ∈ ops := by
    apply path.straight_executed rfl
    intro i member m j m' flow
    obtain ⟨_, _, eq⟩ := fetches i member
    rw [eq] at flow
    exact absurd (interpStep_jump flow) (Nat.not_lt_zero _)
  rw [List.take_of_length_le behind] at executed
  have valid := path_valid path
  cases virtual : src.virtual setup slot with
  | true => exact ⟨Or.inr rfl, fun all => Nat.lt_of_lt_of_le below (Nat.le_trans (all slot virtual) (valid.1 slot))⟩
  | false =>
    have needed := src.mem_fetchOps virtual (Nat.zero_lt_of_lt below)
    rw [Source.fetchOps, fetched] at needed
    obtain ⟨i, member, eq⟩ := List.mem_map.mp needed
    have ran : .fetchSome slot (src.last slot) ∈ ops := eq ▸ executed i member
    exact ⟨Or.inl ⟨src.last slot, below, ran⟩, fun _ => Nat.lt_of_lt_of_le below (valid.2 slot _ ran)⟩

end Runs

/-- Calls return nothing: a deformed column is NULL. -/
def silentWorld : World where
  answer _ _ := .ok []
  caseValue := nullDatum
  domainValue := nullDatum
  aggValue _ := nullDatum

def emptyMachine : Machine where
  mem _ := nullDatum
  slots _ := { nvalid := 0, values := fun _ => nullDatum }
  resultslot _ := nullDatum
  pergroups _ := none
  trace := []

/-- Behind the first step of `coalesce(x, y) IS NOT NULL` the first column can be read. -/
theorem coalesceQual_deforms : ∃ st m, coalesceQual.build sampleSetup = some st ∧
    Path (interpStep silentWorld) st.steps emptyMachine [.fetchSome .scan 2] 1 m ∧ 0 < (m.slots .scan).nvalid := by
  obtain ⟨st, built⟩ : ∃ st, coalesceQual.build sampleSetup = some st := ⟨_, rfl⟩
  have path := Path.next (i := { op := .fetchSome .scan 2, labels := [] })
    (.start : Path (interpStep silentWorld) st.steps emptyMachine [] 0 emptyMachine) (by cases built; rfl) rfl
  refine ⟨st, _, built, path, ?_⟩
  have valid := build_deforms sampleSetup coalesceQual st built rfl (fun _ member => absurd member List.not_mem_nil)
    silentWorld emptyMachine _ _ 1 path { op := .var .result .scan 0, labels := [] } (by cases built; rfl) .scan 0 rfl
  exact valid.2 fun _ virtual => nomatch virtual

end Hex.Compiler
