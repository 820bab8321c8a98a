/-
# Compiler.Programs — the programs of the builders, with blocks

`Code` has the expression compiler in the form in which its output is reasoned about. Here
the builders of `Builders` get the same form: for each of them the code with blocks that it
appends, and a lemma that it does. `build_program` then gives the steps of every program as
the flat form of one piece of code with `EEOP_DONE` behind it, so that what is proved of
that code holds for the program.
-/
import Hex.Compiler.Builders
import Hex.Compiler.Extends

namespace Hex.Compiler

def Scope.top : Scope := { caseval := none, domainval := none }

/-! ## Code -/

/-- The deforming step of a slot that is not always virtual. -/
def genFetch (virtual : Bool) (slot : SlotName) (lastVar : Nat) : Gen 0 :=
  if virtual then .nop else .step (.fetchSome slot lastVar)

def genSlot (setup : Setup) (slot : SlotName) (lastVar : Nat) : Gen 0 :=
  if lastVar > 0 then genFetch (setup.alwaysVirtual slot) slot lastVar else .nop

def genSlots (setup : Setup) (info : LastAttnumInfo) : Gen 0 :=
  (genSlot setup .inner info.lastInner).seq <| (genSlot setup .outer info.lastOuter).seq <|
    genSlot setup .scan info.lastScan

def genQualArgs (setup : Setup) : List Node → Gen 1
  | [] => .nop
  | e :: rest =>
    (Gen.inner (gen setup e .top .result)).seq <|
    (Gen.jump (.qual .result) [0] Gen.only_inside).seq <|
    genQualArgs setup rest

def genTarget (setup : Setup) (assignJunkEntries : Bool) (inputDesc : Option (List DescAttr))
    (tle : TargetEntry) : Gen 0 :=
  match tle.safeVar assignJunkEntries inputDesc with
  | some v => .step (.assignVar v.varno (v.varattno - 1).toNat (tle.resno - 1))
  | none =>
    (gen setup tle.expr .top .result).seq <|
      if !assignJunkEntries && tle.resjunk then .nop
      else .step (if tle.varlena then .assignTmpMakeRO (tle.resno - 1) else .assignTmp (tle.resno - 1))

def genTargets (setup : Setup) (assignJunkEntries : Bool) (inputDesc : Option (List DescAttr)) :
    List TargetEntry → Gen 0
  | [] => .nop
  | tle :: rest =>
    (genTarget setup assignJunkEntries inputDesc tle).seq (genTargets setup assignJunkEntries inputDesc rest)

/-- A transition step; behind the check for a NULL pointer it is in a block of its own. -/
def genTransCall (nullcheck : Bool) (p : PerTrans) (transno setno setoff : Nat) : Gen 0 :=
  if nullcheck then
    .block <| (Gen.jump (.aggPlainPergroupNullcheck setoff) [0] Gen.only_inside).seq <|
      .inner (.step (p.transOpcode transno setno setoff))
  else .step (p.transOpcode transno setno setoff)

/-- The transition steps for `n` grouping sets. -/
def genTransCalls (nullcheck : Bool) (p : PerTrans) (transno : Nat) : Nat → Nat → Nat → Gen 0
  | 0, _, _ => .nop
  | n + 1, setno, setoff =>
    (genTransCall nullcheck p transno setno setoff).seq (genTransCalls nullcheck p transno n (setno + 1) (setoff + 1))

def genAggFilter (setup : Setup) (isCombine : Bool) (p : PerTrans) : Gen 1 :=
  match p.aggfilter with
  | some aggfilter =>
    if isCombine then .nop
    else
      (Gen.inner (gen setup aggfilter .top .result)).seq (Gen.jump (.jumpIfNotTrue .result) [0] Gen.only_inside)
  | none => .nop

def genCombineArg (setup : Setup) (p : PerTrans) (transno : Nat) (source : Node) : Gen 1 :=
  match p.deserialfn with
  | none => .inner (gen setup source .top (.trans transno 1))
  | some deserialfn =>
    let call : FuncCall := { func := deserialfn, args := [.deserial transno 0, .deserial transno 1] }
    (Gen.inner ((gen setup source .top (.deserial transno 0)).seq
      (.store (.deserial transno 1) { value := 0, isnull := false }))).seq <|
    if deserialfn.fnStrict then
      .jump (.aggDeserialize true (.trans transno 1) call) [0] Gen.only_inside
    else .inner (.step (.aggDeserialize false (.trans transno 1) call))

def genAggArgs (setup : Setup) (isCombine : Bool) (p : PerTrans) (transno : Nat) : Gen 1 :=
  if isCombine then
    match p.args with
    | source :: _ => genCombineArg setup p transno source
    | [] => .nop
  else .inner (genArray setup p.args .top (p.targets transno))

def genStrictCheck (isCombine : Bool) (p : PerTrans) (transno : Nat) : Gen 1 :=
  if p.transfn.fnStrict && decide (p.numTransInputs > 0) then
    .jump (.aggStrictInputCheck (p.strictCells isCombine transno)) [0] Gen.only_inside
  else .nop

def genTransitions (phase : AggPhase) (p : PerTrans) (transno : Nat) : Gen 0 :=
  (if phase.doSort then genTransCalls phase.nullcheck p transno (max phase.numsets 1) 0 0 else .nop).seq <|
    if phase.doHash then
      genTransCalls phase.nullcheck p transno phase.numHashes 0 (if phase.hashed then 0 else phase.maxsets)
    else .nop

def genTrans (setup : Setup) (phase : AggPhase) (p : PerTrans) (transno : Nat) : Gen 0 :=
  .block <|
    (genAggFilter setup phase.isCombine p).seq <|
    (genAggArgs setup phase.isCombine p transno).seq <|
    (genStrictCheck phase.isCombine p transno).seq <|
    .inner (genTransitions phase p transno)

def genTransValues (setup : Setup) (phase : AggPhase) : List PerTrans → Nat → Gen 0
  | [], _ => .nop
  | p :: rest, transno => (genTrans setup phase p transno).seq (genTransValues setup phase rest (transno + 1))

def genGroupColumn (col : GroupColumn) : Gen 0 :=
  .palloc 2 fun h =>
    (Gen.step (.var (.work h) .inner (col.keyColIdx - 1))).seq <|
    (Gen.step (.var (.work (h + 1)) .outer (col.keyColIdx - 1))).seq <|
    .step (.notDistinct .result { func := col.eqfunction, args := [.work h, .work (h + 1)] })

def genGroupColumns : List GroupColumn → Gen 1
  | [] => .nop
  | col :: rest =>
    (Gen.inner (genGroupColumn col)).seq <|
    (Gen.jump (.qual .result) [0] Gen.only_inside).seq <|
    genGroupColumns rest

def maxAtt (cols : List GroupColumn) : Nat := cols.foldl (fun maxatt col => max maxatt col.keyColIdx) 0

/-- The deforming steps that a program starts with; an element program has none. -/
def Source.fetches (setup : Setup) : Source → Gen 0
  | .expr node => genSlots setup (walkList [node] .zero)
  | .qual conditions => genSlots setup (walkList conditions .zero)
  | .check conditions => genSlots setup (walkList [makeAndsExplicit conditions] .zero)
  | .element _ => .nop
  | .projection targetList _ _ => genSlots setup (walkList (targetList.map TargetEntry.expr) .zero)
  | .aggTrans _ pertrans => genSlots setup (walkPertrans pertrans .zero)
  | .groupingEqual lvirtual rvirtual cols =>
    (genFetch lvirtual .inner (maxAtt cols)).seq (genFetch rvirtual .outer (maxAtt cols))

def Source.body (setup : Setup) : Source → Gen 0
  | .expr node => gen setup node .top .result
  | .qual conditions => .block (genQualArgs setup conditions)
  | .check conditions => gen setup (makeAndsExplicit conditions) .top .result
  | .element elemexpr => gen setup elemexpr { caseval := some (.work 0), domainval := none } .result
  | .projection targetList assignJunkEntries inputDesc => genTargets setup assignJunkEntries inputDesc targetList
  | .aggTrans phase pertrans => genTransValues setup phase pertrans 0
  | .groupingEqual _ _ cols => .block (genGroupColumns cols.reverse)

/-- The code of a program, without `EEOP_DONE`. -/
def Source.gen (setup : Setup) (src : Source) : Gen 0 := (src.fetches setup).seq (src.body setup)

/-- The work cells in use before a program is compiled: an element program has one for the
element. -/
def Source.heap : Source → Nat
  | .element _ => 1
  | _ => 0

def Source.program (setup : Setup) (src : Source) : Piece 0 :=
  ((src.gen setup).seq (.step .done)).piece src.heap

/-! ## The builders append the code -/

section Builders

variable {st : ExprState}

lemma pushFetch_extends (virtual : Bool) (slot : SlotName) (lastVar : Nat) :
    Emits st (fun _ => genFetch virtual slot lastVar) (pushFetch virtual slot lastVar st) := by
  cases virtual with
  | true => exact Emits.nop
  | false => exact Emits.push fun _ => _

lemma pushSlot_extends (setup : Setup) (slot : SlotName) (lastVar : Nat) :
    Emits st (fun _ => genSlot setup slot lastVar) (pushSlot setup slot lastVar st) := by
  unfold genSlot pushSlot
  split
  · exact pushFetch_extends _ slot lastVar
  · exact Emits.nop

lemma execPushExprSlots_extends (setup : Setup) (info : LastAttnumInfo) :
    Emits st (fun _ => genSlots setup info) (execPushExprSlots setup info st) := by
  apply (pushSlot_extends setup .inner _).seq
  apply (pushSlot_extends setup .outer _).seq
  exact pushSlot_extends setup .scan _

variable (setup : Setup)

lemma execInitExprRec_program (n : Node) (res : Cell) (top : st.scope = .top) :
    Emits st (fun _ => gen setup n .top res) (execInitExprRec setup n res st) :=
  top ▸ execInitExprRec_extends setup n res st

lemma execInitQualArgs_noted : ∀ (conditions : List Node) (st : ExprState) (adjust : List Nat), st.scope = .top →
    NotedExtends [0] st adjust (fun _ => genQualArgs setup conditions) (execInitQualArgs setup conditions st adjust)
  | [], _, _, _ => NotedExtends.nop
  | e :: rest, st, adjust, top => by
    have evaluated := execInitExprRec_program setup e .result top
    refine (NotedExtends.keep evaluated).seq ((NotedExtends.leave _).seq ?_)
    exact execInitQualArgs_noted rest _ _ (evaluated.scope.trans top)

lemma execInitTargets_extends (assignJunkEntries : Bool) (inputDesc : Option (List DescAttr)) :
    ∀ (targetList : List TargetEntry) (st : ExprState), st.scope = .top →
    Emits st (fun _ => genTargets setup assignJunkEntries inputDesc targetList)
      (execInitTargets setup assignJunkEntries inputDesc targetList st)
  | [], _, _ => Emits.nop
  | tle :: rest, st, top => by
    have head : Emits st (fun _ => genTarget setup assignJunkEntries inputDesc tle)
        (match tle.safeVar assignJunkEntries inputDesc with
          | some v => st.push (.assignVar v.varno (v.varattno - 1).toNat (tle.resno - 1))
          | none =>
            let st := execInitExprRec setup tle.expr .result st
            if !assignJunkEntries && tle.resjunk then st
            else if tle.varlena then st.push (.assignTmpMakeRO (tle.resno - 1))
            else st.push (.assignTmp (tle.resno - 1))) := by
      unfold genTarget
      cases tle.safeVar assignJunkEntries inputDesc with
      | some v => exact Emits.push fun _ => _
      | none =>
        apply (execInitExprRec_program setup tle.expr .result top).seq
        split
        · exact Emits.nop
        · split
          · exact Emits.push fun _ => _
          · exact Emits.push fun _ => _
    exact head.seq (execInitTargets_extends assignJunkEntries inputDesc rest _ (head.scope.trans top))

/-! ## Aggregate transitions -/

omit setup in
lemma execBuildAggTransCall_extends (nullcheck : Bool) (p : PerTrans) (transno setno setoff : Nat) (st : ExprState) :
    Emits st (fun _ => genTransCall nullcheck p transno setno setoff)
      (execBuildAggTransCall nullcheck p transno setno setoff st) := by
  cases nullcheck with
  | false => exact Emits.push fun _ => _
  | true =>
    exact ((NotedExtends.leave (.aggPlainPergroupNullcheck setoff)).seq
      (NotedExtends.keep (Emits.push fun _ => p.transOpcode transno setno setoff))).block

omit setup in
lemma execBuildAggTransCalls_extends (nullcheck : Bool) (p : PerTrans) (transno : Nat) :
    ∀ (n setno setoff : Nat) (st : ExprState),
    Emits st (fun _ => genTransCalls nullcheck p transno n setno setoff)
      (execBuildAggTransCalls nullcheck p transno n setno setoff st)
  | 0, _, _, _ => Emits.nop
  | n + 1, setno, setoff, st =>
    (execBuildAggTransCall_extends nullcheck p transno setno setoff st).seq
      (execBuildAggTransCalls_extends nullcheck p transno n (setno + 1) (setoff + 1) _)

omit setup in
lemma execInitTransitions_extends (phase : AggPhase) (p : PerTrans) (transno : Nat) (st : ExprState) :
    Emits st (fun _ => genTransitions phase p transno) (execInitTransitions phase p transno st) := by
  have sorted : Emits st
      (fun _ => if phase.doSort then genTransCalls phase.nullcheck p transno (max phase.numsets 1) 0 0 else .nop)
      (if phase.doSort then execBuildAggTransCalls phase.nullcheck p transno (max phase.numsets 1) 0 0 st
        else st) := by
    split
    · exact execBuildAggTransCalls_extends phase.nullcheck p transno _ 0 0 st
    · exact Emits.nop
  apply sorted.seq
  unfold execInitTransitions
  cases phase.doHash with
  | true => exact execBuildAggTransCalls_extends phase.nullcheck p transno _ 0 _ _
  | false => exact Emits.nop

lemma execInitAggFilter_noted (isCombine : Bool) (p : PerTrans) (top : st.scope = .top) :
    NotedExtends [0] st [] (fun _ => genAggFilter setup isCombine p) (execInitAggFilter setup isCombine p st) := by
  unfold genAggFilter execInitAggFilter
  cases p.aggfilter with
  | none => exact NotedExtends.nop
  | some aggfilter =>
    cases isCombine with
    | true => exact NotedExtends.nop
    | false =>
      exact (NotedExtends.keep (execInitExprRec_program setup aggfilter .result top)).seq (NotedExtends.leave _)

lemma execInitCombineArg_noted (p : PerTrans) (transno : Nat) (source : Node) (adjust : List Nat)
    (top : st.scope = .top) :
    NotedExtends [0] st adjust (fun _ => genCombineArg setup p transno source)
      (execInitCombineArg setup p transno source st adjust) := by
  unfold genCombineArg execInitCombineArg
  cases p.deserialfn with
  | none => exact NotedExtends.keep (execInitExprRec_program setup source _ top)
  | some deserialfn =>
    refine (NotedExtends.keep ((execInitExprRec_program setup source (.deserial transno 0) top).seq
      (Emits.store (.deserial transno 1) { value := 0, isnull := false }))).seq ?_
    dsimp only
    split
    · exact NotedExtends.leave _
    · exact NotedExtends.keep (Emits.push fun _ => _)

lemma execInitArray_program : ∀ (args : List Node) (cells : List Cell) (st : ExprState), st.scope = .top →
    Emits st (fun _ => genArray setup args .top cells) (execInitArray setup args cells st) := by
  intro args cells st top
  rw [← top]
  exact execInitArray_extends setup args cells st

lemma execInitAggArgs_noted (isCombine : Bool) (p : PerTrans) (transno : Nat) (adjust : List Nat)
    (top : st.scope = .top) :
    NotedExtends [0] st adjust (fun _ => genAggArgs setup isCombine p transno)
      (execInitAggArgs setup isCombine p transno st adjust) := by
  unfold genAggArgs execInitAggArgs
  split
  · cases p.args with
    | nil => exact NotedExtends.nop
    | cons source rest => exact execInitCombineArg_noted setup p transno source adjust top
  · exact NotedExtends.keep (execInitArray_program setup p.args _ st top)

omit setup in
lemma execInitStrictCheck_noted (isCombine : Bool) (p : PerTrans) (transno : Nat) (adjust : List Nat) :
    NotedExtends [0] st adjust (fun _ => genStrictCheck isCombine p transno)
      (execInitStrictCheck isCombine p transno st adjust) := by
  unfold genStrictCheck execInitStrictCheck
  split
  · exact NotedExtends.leave _
  · exact NotedExtends.nop

lemma execInitTrans_extends (phase : AggPhase) (p : PerTrans) (transno : Nat) (st : ExprState)
    (top : st.scope = .top) :
    Emits st (fun _ => genTrans setup phase p transno) (execInitTrans setup phase p transno st) := by
  have filtered := execInitAggFilter_noted setup phase.isCombine p top
  apply NotedExtends.block
  apply filtered.seq
  apply (execInitAggArgs_noted setup phase.isCombine p transno _ (filtered.scope.trans top)).seq
  apply (execInitStrictCheck_noted phase.isCombine p transno _).seq
  exact NotedExtends.keep (execInitTransitions_extends phase p transno _)

lemma execInitTransValues_extends (phase : AggPhase) :
    ∀ (pertrans : List PerTrans) (transno : Nat) (st : ExprState), st.scope = .top →
    Emits st (fun _ => genTransValues setup phase pertrans transno)
      (execInitTransValues setup phase pertrans transno st)
  | [], _, _, _ => Emits.nop
  | p :: rest, transno, st, top => by
    have head := execInitTrans_extends setup phase p transno st top
    exact head.seq (execInitTransValues_extends phase rest (transno + 1) _ (head.scope.trans top))

/-! ## Equality of groups -/

omit setup in
lemma groupColumn_extends (col : GroupColumn) (st : ExprState) : Emits st (fun _ => genGroupColumn col)
      ((((st.palloc 2).push (.var (.work st.heap) .inner (col.keyColIdx - 1))).push
        (.var (.work (st.heap + 1)) .outer (col.keyColIdx - 1))).push
        (.notDistinct .result { func := col.eqfunction, args := [.work st.heap, .work (st.heap + 1)] })) :=
  Emits.palloc ((Emits.push fun _ => _).seq ((Emits.push fun _ => _).seq (Emits.push fun _ => _)))

omit setup in
lemma execInitGroupColumns_noted : ∀ (cols : List GroupColumn) (st : ExprState) (adjust : List Nat),
    NotedExtends [0] st adjust (fun _ => genGroupColumns cols) (execInitGroupColumns cols st adjust)
  | [], _, _ => NotedExtends.nop
  | col :: rest, st, adjust => by
    have compared := Emits.after (SameCode.aclcheck col.eqfunction st) (groupColumn_extends col _)
    exact (NotedExtends.keep compared).seq ((NotedExtends.leave _).seq (execInitGroupColumns_noted rest _ _))

/-! ## Whole programs -/

/-- The steps and the cells of a program that is appended to an empty one. -/
structure IsProgram (st : ExprState) (p : Piece 0) : Prop where
  steps : st.steps = p.code.flatten 0 []
  stores : st.stores = p.stores

omit setup in
lemma Extends.isProgram {start st' : ExprState} {g : Gen 0} (ext : Extends start (g.piece start.heap) st')
    (empty : start.steps = []) (fresh : start.stores = []) :
    IsProgram (st'.push .done) ((g.seq (.step .done)).piece start.heap) := by
  have whole := ext.seq (Extends.push .done)
  refine ⟨?_, ?_⟩
  · rw [whole.steps, empty]
    rfl
  · rw [whole.stores, fresh]
    rfl

lemma execInitExpr_isProgram (node : Node) :
    IsProgram (execInitExpr setup node) ((Source.expr node).program setup) := by
  have slots := @execPushExprSlots_extends .makeNode setup (walkList [node] .zero)
  exact (slots.seq (execInitExprRec_program setup node .result slots.scope)).isProgram rfl rfl

/-- **Every program of the builders is the flat form of its code.** -/
theorem build_isProgram {src : Source} (built : src.build setup = some st) : IsProgram st (src.program setup) := by
  cases src with
  | expr node =>
    cases built
    exact execInitExpr_isProgram setup node
  | qual conditions =>
    cases conditions with
    | nil => cases built
    | cons e rest =>
      cases built
      have slots := @execPushExprSlots_extends .makeNode setup (walkList (e :: rest) .zero)
      have checked := execInitQualArgs_noted setup (e :: rest) _ [] slots.scope
      exact (slots.seq checked.block).isProgram rfl rfl
  | check conditions =>
    cases conditions with
    | nil => cases built
    | cons e rest =>
      cases built
      exact execInitExpr_isProgram setup (makeAndsExplicit (e :: rest))
  | element elemexpr =>
    simp only [Source.build, execInitElement] at built
    split at built
    · cases built
    · cases built
      have nothing : Extends ExprState.makeNode.element ((Gen.nop : Gen 0).piece 1) _ := Extends.nop
      exact (nothing.seq (execInitExprRec_extends setup elemexpr .result _)).isProgram rfl rfl
  | projection targetList assignJunkEntries inputDesc =>
    cases built
    have slots := @execPushExprSlots_extends .makeNode setup (walkList (targetList.map TargetEntry.expr) .zero)
    have assigned := execInitTargets_extends setup assignJunkEntries inputDesc targetList _ slots.scope
    exact (slots.seq assigned).isProgram rfl rfl
  | aggTrans phase pertrans =>
    cases built
    have slots := @execPushExprSlots_extends .makeNode setup (walkPertrans pertrans .zero)
    have advanced := execInitTransValues_extends setup phase pertrans 0 _ slots.scope
    exact (slots.seq advanced).isProgram rfl rfl
  | groupingEqual lvirtual rvirtual cols =>
    cases cols with
    | nil => cases built
    | cons col rest =>
      cases built
      have slots : Extends .makeNode _ _ :=
        (pushFetch_extends lvirtual .inner (maxAtt (col :: rest))).seq
          (pushFetch_extends rvirtual .outer (maxAtt (col :: rest)))
      have compared := execInitGroupColumns_noted (col :: rest).reverse
        (pushFetch rvirtual .outer (maxAtt (col :: rest))
          (pushFetch lvirtual .inner (maxAtt (col :: rest)) .makeNode)) []
      exact (slots.seq compared.block).isProgram rfl rfl

end Builders

end Hex.Compiler
