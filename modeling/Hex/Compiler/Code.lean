/-
# Compiler.Code — the compiler's output with blocks

`execInitExprRec` sets jump targets after the fact. `gen` is the same compiler in
the form in which its output is reasoned about: code with blocks, in which a jump
names the block that it leaves. A `Gen d` takes the number of work cells in use and
returns code that leaves at most `d` blocks around it; it carries the proof of
that, and that it only adds work cells.
-/
import Hex.Compiler.ExecInit

namespace Hex.Compiler

open Theory.BlockCode

/-- Where the placeholders of an expression read their values. -/
structure Scope where
  caseval : Option Cell
  domainval : Option Cell

/-- Code, and the memory that it was compiled with. The code relies on `constants`; other cells
that the compiler fills are overwritten before they are read. -/
structure Piece (d : Nat) where
  code : Code Op
  closed : code.Closed d
  heap : Nat
  stores : List (Cell × NullableDatum)
  constants : List (Cell × NullableDatum)
  filled : ∀ p ∈ constants, p ∈ stores

structure Gen (d : Nat) where
  piece : Nat → Piece d
  grows : ∀ heap, heap ≤ (piece heap).heap

namespace Gen

variable {d : Nat}

def nop : Gen d where
  piece heap :=
    { code := .skip, closed := trivial, heap := heap, stores := [], constants := [], filled := fun _ => id }
  grows _ := Nat.le_refl _

/-- A step whose labels leave blocks around it. -/
def jump (op : Op) (labels : List Nat) (inside : ∀ k ∈ labels, k < d) : Gen d where
  piece heap :=
    { code := .instr { op := op, labels := labels }, closed := inside, heap := heap, stores := [], constants := []
      filled := fun _ => id }
  grows _ := Nat.le_refl _

-- the labels that steps have
lemma first_inside : ∀ k ∈ [0], k < d + 1 := List.forall_mem_singleton.mpr (Nat.succ_pos d)

lemma only_inside : ∀ k ∈ [0], k < 1 := first_inside

lemma second_inside : ∀ k ∈ [1], k < d + 2 :=
  List.forall_mem_singleton.mpr (Nat.succ_lt_succ (Nat.succ_pos d))

lemma both_inside : ∀ k ∈ [0, 1], k < d + 2 :=
  List.forall_mem_cons.mpr ⟨Nat.succ_pos _, second_inside⟩

def step (op : Op) : Gen d := jump op [] (by simp)

def seq (a b : Gen d) : Gen d where
  piece heap :=
    { code := .seq (a.piece heap).code (b.piece (a.piece heap).heap).code
      closed := ⟨(a.piece heap).closed, (b.piece (a.piece heap).heap).closed⟩
      heap := (b.piece (a.piece heap).heap).heap
      stores := (a.piece heap).stores ++ (b.piece (a.piece heap).heap).stores
      constants := (a.piece heap).constants ++ (b.piece (a.piece heap).heap).constants
      filled := fun p member => List.mem_append.mpr
        ((List.mem_append.mp member).imp ((a.piece heap).filled p) ((b.piece _).filled p)) }
  grows heap := Nat.le_trans (a.grows heap) (b.grows _)

def block (a : Gen (d + 1)) : Gen d where
  piece heap :=
    { code := .block (a.piece heap).code
      closed := (a.piece heap).closed
      heap := (a.piece heap).heap
      stores := (a.piece heap).stores
      constants := (a.piece heap).constants
      filled := (a.piece heap).filled }
  grows heap := a.grows heap

/-- Allocate `n` work cells; the rest knows the first of them. -/
def palloc (n : Nat) (rest : Nat → Gen d) : Gen d where
  piece heap := (rest heap).piece (heap + n)
  grows heap := Nat.le_trans (Nat.le_add_right heap n) ((rest heap).grows _)

def store (c : Cell) (value : NullableDatum) : Gen d where
  piece heap :=
    { code := .skip, closed := trivial, heap := heap, stores := [(c, value)], constants := [(c, value)]
      filled := fun _ => id }
  grows _ := Nat.le_refl _

/-- Fill a cell that the code overwrites before it reads it. -/
def preset (c : Cell) (value : NullableDatum) : Gen d where
  piece heap :=
    { code := .skip, closed := trivial, heap := heap, stores := [(c, value)], constants := [], filled := nofun }
  grows _ := Nat.le_refl _

/-- Code that leaves no block, inside of blocks. -/
def inner (a : Gen 0) : Gen d where
  piece heap :=
    { code := (a.piece heap).code
      closed := (a.piece heap).closed.mono (Nat.zero_le d)
      heap := (a.piece heap).heap
      stores := (a.piece heap).stores
      constants := (a.piece heap).constants
      filled := (a.piece heap).filled }
  grows heap := a.grows heap

end Gen

/-- The element expression of an array coercion is the CaseTestExpr alone. -/
def trivialElem (elem : Gen 0) : Bool := trivialSteps ((elem.piece 1).code.flatten 0 [])

/-- Set cells to NULL while compiling; the first `n` are overwritten. -/
def genNulls : Nat → List Cell → Gen 0
  | _, [] => .nop
  | 0, c :: cells => (Gen.store c nullDatum).seq (genNulls 0 cells)
  | n + 1, c :: cells => (Gen.preset c nullDatum).seq (genNulls n cells)

mutual

def gen (setup : Setup) : Node → Scope → Cell → Gen 0
  | .var v, _, res => .step (varOpcode v res)
  | .const con, _, res => .step (.const res con)
  | .param p, _, res => .step (.eval (.param p) [] [res])
  | .aggref aggno _, _, res => .step (.aggref res aggno)
  | .groupingFunc cols _, _, res =>
    .step (.eval (.groupingFunc (if setup.groupingSets then cols else [])) [] [res])
  | .windowFunc wfuncno _ _, _, res => .step (.windowFunc res wfuncno)
  | .subscriptingRef container refexpr refupperindexpr reflowerindexpr refassgnexpr, s, res =>
    .palloc 3 fun h =>
      .block <|
        (Gen.inner (gen setup refexpr s res)).seq <|
        (if refassgnexpr.isSome then Gen.nop else Gen.jump (.jumpIfNull res) [0] Gen.first_inside).seq <|
        (genSubscripts setup refupperindexpr s container res (.work h) true refassgnexpr.isSome 0).seq <|
        (genSubscripts setup reflowerindexpr s container res (.work h) false refassgnexpr.isSome 0).seq <|
        .inner (genAssignment setup refassgnexpr s container res (.work (h + 1)) (.work (h + 2)))
  | .funcExpr f args, s, res =>
    .palloc args.length fun h =>
      (genFuncArgs setup args s (workCells h args.length)).seq
        (.step (funcOpcode setup res { func := f, args := workCells h args.length }))
  | .opExpr f args, s, res =>
    .palloc args.length fun h =>
      (genFuncArgs setup args s (workCells h args.length)).seq
        (.step (funcOpcode setup res { func := f, args := workCells h args.length }))
  | .distinctExpr f args, s, res =>
    .palloc args.length fun h =>
      (genFuncArgs setup args s (workCells h args.length)).seq
        (.step (.distinct res { func := f, args := workCells h args.length }))
  | .nullIfExpr f args, s, res =>
    .palloc args.length fun h =>
      (genFuncArgs setup args s (workCells h args.length)).seq
        (.step (.nullif res { func := f, args := workCells h args.length }))
  | .scalarArrayOpExpr f useOr scalararg arrayarg, s, res =>
    .palloc 2 fun h =>
      (gen setup scalararg s (.work h)).seq <|
      (gen setup arrayarg s res).seq <|
      .step (.eval (.scalarArrayOp f useOr) [.work h, res] [res])
  | .boolExpr boolop args, s, res =>
    .palloc (if boolop = .not then 0 else 1) fun h =>
      .block (genBoolArgs setup args s boolop args.length res (.work h) 0)
  | .subPlan planId _ _, _, res => .step (.eval (.subPlan planId) [] [res])
  | .alternativeSubPlan planId _, _, res => .step (.eval (.alternativeSubPlan planId) [] [res])
  | .fieldSelect fieldnum resulttype arg, s, res =>
    (gen setup arg s res).seq (.step (.eval (.fieldSelect fieldnum resulttype) [res] [res]))
  | .fieldStore resulttype ncolumns arg newvals fieldnums, s, res =>
    .palloc ncolumns fun h =>
      (gen setup arg s res).seq <|
      (Gen.step (.eval (.fieldStoreDeForm resulttype) [res] (workCells h ncolumns))).seq <|
      (genNewvals setup newvals s fieldnums h ncolumns).seq <|
      .step (.eval (.fieldStoreForm resulttype) (workCells h ncolumns) [res])
  | .relabelType arg, s, res => gen setup arg s res
  | .coerceViaIo outfunc infunc typioparam arg, s, res =>
    (gen setup arg s res).seq <|
    .palloc 4 fun h =>
      (Gen.store (.work (h + 2)) { value := BitVec.ofNat 64 typioparam, isnull := false }).seq <|
      (Gen.store (.work (h + 3)) { value := BitVec.ofInt 64 (-1), isnull := false }).seq <|
      .step (.ioCoerce res { func := outfunc, args := workCells h 1 }
        { func := infunc, args := workCells (h + 1) 3 })
  | .arrayCoerceExpr resultelemtype arg elemexpr, s, res =>
    (gen setup arg s res).seq (.step (.eval (.arrayCoerce resultelemtype
        (elemExpr (trivialElem (gen setup elemexpr { caseval := some (.work 0), domainval := none } .result))
          elemexpr)) [res] [res]))
  | .convertRowtypeExpr inputtype outputtype arg, s, res =>
    (gen setup arg s res).seq (.step (.eval (.convertRowtype inputtype outputtype) [res] [res]))
  | .caseExpr arg varlena args defresult, s, res =>
    .palloc (if arg.isSome then 1 else 0) fun h =>
      let caseval := if arg.isSome then some (Cell.work h) else none
      (genCaseArg setup arg s varlena (.work h)).seq <|
      .block <| (genCaseArms setup args s caseval res).seq (.inner (gen setup defresult s res))
  | .caseTestExpr, s, res => .step (.caseTestVal res s.caseval)
  | .arrayExpr elementType multidims elements, s, res =>
    .palloc elements.length fun h =>
      (genArray setup elements s (workCells h elements.length)).seq
        (.step (.eval (.arrayExpr elementType multidims) (workCells h elements.length) [res]))
  | .rowExpr rowType attrs args, s, res =>
    .palloc (max args.length attrs.length) fun h =>
      (genNulls (min args.length attrs.length) (workCells h (max args.length attrs.length))).seq <|
      (genRow setup args s attrs (workCells h (max args.length attrs.length))).seq <|
      .step (.eval (.row rowType) (workCells h (max args.length attrs.length)) [res])
  | .rowCompareExpr rctype columns, s, res =>
    .block <|
      (Gen.block <|
        (genRowCompare setup columns s res).seq
          (if columns.length = 0 then .step (.const res { value := 0, isnull := false }) else .nop)).seq <|
      .step (.rowCompareFinal res rctype)
  | .coalesceExpr args, s, res => .block (genCoalesce setup args s res)
  | .minMaxExpr greatest _ cmp args, s, res =>
    .palloc args.length fun h =>
      (genArray setup args s (workCells h args.length)).seq
        (.step (.eval (.minMax greatest cmp) (workCells h args.length) [res]))
  | .sqlValueFunction op, _, res => .step (.eval (.sqlValueFunction op) [] [res])
  | .xmlExpr op namedArgs args, s, res =>
    .palloc (namedArgs.length + args.length) fun h =>
      (genArray setup namedArgs s (workCells h namedArgs.length)).seq <|
      (genArray setup args s (workCells (h + namedArgs.length) args.length)).seq <|
      .step (.eval (.xmlExpr op namedArgs.length)
        (workCells h namedArgs.length ++ workCells (h + namedArgs.length) args.length) [res])
  | .nullTest isNull argisrow arg, s, res =>
    (gen setup arg s res).seq (.step (if argisrow then .eval (.rowNull isNull) [res] [res] else .nullTest res isNull))
  | .booleanTest booltesttype arg, s, res =>
    (gen setup arg s res).seq (.step (boolTestOpcode booltesttype res))
  | .coerceToDomain typeName varlena arg constraints, s, res =>
    (gen setup arg s res).seq (genConstraints setup constraints s typeName varlena res none none)
  | .coerceToDomainValue, s, res => .step (.domainTestVal res s.domainval)
  | .currentOfExpr, _, res => .step (.eval .currentOfExpr [] [res])
  | .nextValueExpr seqid seqtypid, _, res => .step (.eval (.nextValueExpr seqid seqtypid) [] [res])

def genFuncArgs (setup : Setup) : List Node → Scope → List Cell → Gen 0
  | arg :: rest, s, c :: cells =>
    (match arg.const? with
      | some con => Gen.store c con
      | none => gen setup arg s c).seq (genFuncArgs setup rest s cells)
  | _, _, _ => .nop

def genArray (setup : Setup) : List Node → Scope → List Cell → Gen 0
  | e :: rest, s, c :: cells => (gen setup e s c).seq (genArray setup rest s cells)
  | _, _, _ => .nop

def genRow (setup : Setup) : List Node → Scope → List RowAttr → List Cell → Gen 0
  | e :: rest, s, att :: attrs, c :: cells =>
    (if att.attisdropped then Gen.step (.const c nullDatum) else gen setup e s c).seq (genRow setup rest s attrs cells)
  | _, _, _, _ => .nop

def genBoolArgs (setup : Setup) : List Node → Scope → BoolOp → Nat → Cell → Cell → Nat → Gen 1
  | [], _, _, _, _, _, _ => .nop
  | arg :: rest, s, boolop, nargs, res, anynull, off =>
    (Gen.inner (gen setup arg s res)).seq <|
    (Gen.jump (boolOpcode boolop off nargs res anynull) [0] Gen.first_inside).seq <|
    genBoolArgs setup rest s boolop nargs res anynull (off + 1)

def genCoalesce (setup : Setup) : List Node → Scope → Cell → Gen 1
  | [], _, _ => .nop
  | e :: rest, s, res =>
    (Gen.inner (gen setup e s res)).seq <|
    (Gen.jump (.jumpIfNotNull res) [0] Gen.first_inside).seq <|
    genCoalesce setup rest s res

def genCaseArg (setup : Setup) : Option Node → Scope → Bool → Cell → Gen 0
  | none, _, _, _ => .nop
  | some arg, s, varlena, caseval =>
    (gen setup arg s caseval).seq (if varlena then .step (.makeReadonly caseval caseval) else .nop)

/-- The arms of a CaseExpr: each is a block that is left when its condition is not
true, inside of the block of the CaseExpr. -/
def genCaseArms (setup : Setup) : List CaseWhen → Scope → Option Cell → Cell → Gen 1
  | [], _, _, _ => .nop
  | .mk expr result :: rest, s, caseval, res =>
    (Gen.block <|
      (Gen.inner (gen setup expr { s with caseval := caseval } res)).seq <|
      (Gen.jump (.jumpIfNotTrue res) [0] Gen.first_inside).seq <|
      (Gen.inner (gen setup result s res)).seq <|
      .jump .jump [1] Gen.second_inside).seq <|
    genCaseArms setup rest s caseval res

/-- The columns of a RowCompareExpr: the inner block ends before the final step,
the outer one behind it. -/
def genRowCompare (setup : Setup) : List RowColumn → Scope → Cell → Gen 2
  | [], _, _ => .nop
  | .mk oper left right :: rest, s, res =>
    .palloc 2 fun h =>
      (Gen.inner (gen setup left s (.work h))).seq <|
      (Gen.inner (gen setup right s (.work (h + 1)))).seq <|
      (Gen.jump (.rowCompareStep res { func := oper.proc, args := [.work h, .work (h + 1)] }) [0, 1]
        Gen.both_inside).seq <|
      genRowCompare setup rest s res

def genSubscripts (setup : Setup) :
    List (Option Node) → Scope → Oid → Cell → Cell → Bool → Bool → Nat → Gen 1
  | [], _, _, _, _, _, _, _ => .nop
  | none :: rest, s, container, res, subscript, isupper, isAssignment, i =>
    genSubscripts setup rest s container res subscript isupper isAssignment (i + 1)
  | some e :: rest, s, container, res, subscript, isupper, isAssignment, i =>
    (Gen.inner (gen setup e s subscript)).seq <|
    (Gen.jump (.sbsrefSubscript res subscript (.subscriptingRef container isupper i) isAssignment) [0]
      Gen.first_inside).seq <|
    genSubscripts setup rest s container res subscript isupper isAssignment (i + 1)

def genAssignment (setup : Setup) : Option Node → Scope → Oid → Cell → Cell → Cell → Gen 0
  | none, _, container, res, _, _ => .step (.eval (.subscriptingRefFetch container) [res] [res])
  | some refassgnexpr, s, container, res, prev, replace =>
    (if isAssignmentIndirectionExpr refassgnexpr then
        Gen.step (.eval (.subscriptingRefOld container) [res] [prev]) else .nop).seq <|
    (gen setup refassgnexpr { s with caseval := some prev } replace).seq <|
    .step (.eval (.subscriptingRefAssign container) [res, replace] [res])

def genNewvals (setup : Setup) : List Node → Scope → List Int → Nat → Nat → Gen 0
  | e :: rest, s, fieldnum :: fieldnums, base, ncolumns =>
    (if fieldnum ≤ 0 ∨ fieldnum > ncolumns then Gen.nop
      else gen setup e { s with caseval := some (.work (base + (fieldnum - 1).toNat)) }
        (.work (base + (fieldnum - 1).toNat))).seq
      (genNewvals setup rest s fieldnums base ncolumns)
  | _, _, _, _, _ => .nop

def genConstraints (setup : Setup) :
    List DomainConstraint → Scope → String → Bool → Cell → Option Cell → Option Cell → Gen 0
  | [], _, _, _, _, _, _ => .nop
  | .notnull _ :: rest, s, typeName, varlena, res, check, domainval =>
    (Gen.step (.domainNotnull res typeName)).seq (genConstraints setup rest s typeName varlena res check domainval)
  | .check name expr :: rest, s, typeName, varlena, res, check, domainval =>
    .palloc (if check.isSome then 0 else 1) fun h =>
      let checkvalue := check.getD (.work h)
      .palloc (if domainval.isSome || !varlena then 0 else 1) fun h' =>
        let value := domainval.getD (if varlena then .work h' else res)
        (if domainval.isSome || !varlena then Gen.nop else Gen.step (.makeReadonly value res)).seq <|
        (gen setup expr { s with domainval := some value } checkvalue).seq <|
        (Gen.step (.domainCheck checkvalue typeName name)).seq <|
        genConstraints setup rest s typeName varlena res (some checkvalue) (some value)

end

end Hex.Compiler
