/-
# Compiler.ScalarArray — scalar op ANY/ALL (array)

`EEOP_SCALARARRAYOP` finds the array in its result and the scalar in the first argument of the
operator. `execEvalScalarArrayOp` is the loop of `ExecEvalScalarArrayOp` over the stored array: a
pointer into the data that moves over the elements that are not NULL, and a pointer and a mask
that move over the bits of the null bitmap.

* `ArrayType.Decodes`: the stored array is the list of the elements, with NULL where the bitmap
  has no bit.
* `anyAll`: the three-valued OR or AND of all results of the operator.
* **`execEvalScalarArrayOp_anyAll`**: the loop gives that value, and so does the program that is
  compiled for the expression.
-/
import Mathlib.Data.Nat.Bitwise
import Hex.Compiler.ProgramRun

namespace Hex.Compiler

/-! ## Stored arrays -/

/-- What `get_typlenbyvalalign` looks up for a type. -/
structure TypInfo where
  typlen : Int
  typbyval : Bool
  typalign : Char
  deriving DecidableEq, Repr

/-- `ArrayType`: the element type, the number of elements, the bytes of the null bitmap if there
is one, and the address of the data. -/
structure ArrayType where
  elemtype : Oid
  nitems : Nat
  nullBitmap : Option (Nat → BitVec 8)
  dataPtr : Nat

/-- Where arrays and types are looked up. -/
structure ArrayAccess where
  /-- `DatumGetArrayTypeP` -/
  getArrayTypeP : Datum → ArrayType
  /-- `get_typlenbyvalalign` -/
  getTyp : Oid → TypInfo
  /-- `fetch_att` -/
  fetchAtt : TypInfo → Nat → Datum
  /-- `att_addlength_pointer` and `att_align_nominal`: the address behind an element -/
  behind : TypInfo → Nat → Nat

/-- The type information that a step keeps; `element_type` is `InvalidOid` at first. -/
structure ElementInfo where
  elementType : Oid
  typ : TypInfo
  deriving DecidableEq, Repr

/-- The places of the loop: in the data, in the bitmap, and in a byte of the bitmap. -/
structure ArrayCursor where
  s : Nat
  bitmap : Nat
  bitmask : Nat

section Loop

variable (access : ArrayAccess) (strictfunc useOr : Bool) (oper : SqlValue → SqlValue → NullableDatum)
  (scalar : SqlValue) (typ : TypInfo) (arr : ArrayType)

/-- `bitmap && (*bitmap & bitmask) == 0` -/
def ArrayType.nullAt (cur : ArrayCursor) : Bool :=
  match arr.nullBitmap with
  | none => false
  | some bytes => (bytes cur.bitmap).toNat &&& cur.bitmask == 0

/-- The next element, and the place in the data behind it. -/
def nextElement (cur : ArrayCursor) : SqlValue × Nat :=
  if arr.nullAt cur then (none, cur.s) else (some (access.fetchAtt typ cur.s), access.behind typ cur.s)

/-- Advance the bitmap pointer, if any. -/
def ArrayType.advance (cur : ArrayCursor) : ArrayCursor :=
  match arr.nullBitmap with
  | none => cur
  | some _ =>
    if cur.bitmask <<< 1 = 0x100 then { cur with bitmap := cur.bitmap + 1, bitmask := 1 }
    else { cur with bitmask := cur.bitmask <<< 1 }

/-- The operator on an element; a strict one is not called for NULL. -/
def thisResult (element : SqlValue) : NullableDatum :=
  if element.isNone && strictfunc then { value := 0, isnull := true } else oper scalar element

/-- The loop over `nitems` elements, with `result` and `resultnull`. -/
def scalarArrayLoop : Nat → ArrayCursor → NullableDatum → NullableDatum
  | 0, _, result => result
  | n + 1, cur, result =>
    let next := nextElement access typ arr cur
    let this := thisResult strictfunc oper scalar next.1
    let cur := arr.advance { cur with s := next.2 }
    if this.isnull then scalarArrayLoop n cur { result with isnull := true }
    else if useOr then
      if datumGetBool this.value then { value := boolGetDatum true, isnull := false }
      else scalarArrayLoop n cur result
    else
      if !datumGetBool this.value then { value := boolGetDatum false, isnull := false }
      else scalarArrayLoop n cur result

/-- The type information of the elements, looked up when the type has changed. -/
def ElementInfo.lookup (info : ElementInfo) : ElementInfo :=
  if info.elementType ≠ arr.elemtype then { elementType := arr.elemtype, typ := access.getTyp arr.elemtype } else info

def execEvalScalarArrayOp (info : ElementInfo) (res : NullableDatum) : NullableDatum × ElementInfo :=
  if res.isnull then (res, info)
  else
    let arr := access.getArrayTypeP res.value
    if arr.nitems = 0 then ({ value := boolGetDatum (!useOr), isnull := false }, info)
    else if scalar.isNone && strictfunc then ({ res with isnull := true }, info)
    else
      let info := info.lookup access arr
      (scalarArrayLoop access strictfunc useOr oper scalar info.typ arr arr.nitems
        { s := arr.dataPtr, bitmap := 0, bitmask := 1 } { value := boolGetDatum (!useOr), isnull := false }, info)

end Loop

/-! ## What the expression means -/

/-- Element `i` is NULL: the bitmap has no bit for it. -/
def ArrayType.isNull (arr : ArrayType) (i : Nat) : Bool :=
  match arr.nullBitmap with
  | none => false
  | some bytes => !(bytes (i / 8)).toNat.testBit (i % 8)

/-- From element `i` on, with the data from `s` on, the array holds the elements. -/
def ArrayType.DecodesFrom (access : ArrayAccess) (typ : TypInfo) (arr : ArrayType) :
    Nat → Nat → List SqlValue → Prop
  | _, _, [] => True
  | i, s, none :: rest => arr.isNull i = true ∧ arr.DecodesFrom access typ (i + 1) s rest
  | i, s, some d :: rest =>
    arr.isNull i = false ∧ access.fetchAtt typ s = d ∧ arr.DecodesFrom access typ (i + 1) (access.behind typ s) rest

structure ArrayType.Decodes (access : ArrayAccess) (arr : ArrayType) (elements : List SqlValue) : Prop where
  nitems : arr.nitems = elements.length
  elemtype : arr.elemtype ≠ 0
  elements : arr.DecodesFrom access (access.getTyp arr.elemtype) 0 arr.dataPtr elements

/-- The type information of a step is that of its type, once it has been looked up. -/
def ElementInfo.Current (access : ArrayAccess) (info : ElementInfo) : Prop :=
  info.elementType ≠ 0 → info.typ = access.getTyp info.elementType

/-- ANY is an OR, ALL an AND. -/
def anyAllOp (useOr : Bool) : AndOr := if useOr then .or else .and

def operatorTruth (strictfunc : Bool) (oper : SqlValue → SqlValue → NullableDatum) (scalar element : SqlValue) :
    Option Bool :=
  if strictfunc && (scalar.isNone || element.isNone) then none else (oper scalar element).sql.map datumGetBool

/-- The three-valued OR or AND of the operator's results over all elements. -/
def anyAll (strictfunc useOr : Bool) (oper : SqlValue → SqlValue → NullableDatum) (scalar : SqlValue)
    (elements : List SqlValue) : Option Bool :=
  (elements.map (operatorTruth strictfunc oper scalar)).foldl (anyAllOp useOr).connect (some (!useOr))

/-! ## The bitmap -/

/-- The bitmap pointer and the mask are at element `i`. -/
def ArrayType.At (arr : ArrayType) (i : Nat) (cur : ArrayCursor) : Prop :=
  arr.nullBitmap.isSome = true → cur.bitmap = i / 8 ∧ cur.bitmask = 2 ^ (i % 8)

lemma ArrayType.At.nullAt {arr : ArrayType} {i : Nat} {cur : ArrayCursor} (here : arr.At i cur) :
    arr.nullAt cur = arr.isNull i := by
  unfold ArrayType.nullAt ArrayType.isNull
  cases bitmap : arr.nullBitmap with
  | none => rfl
  | some bytes =>
    obtain ⟨byte, mask⟩ := here (by rw [bitmap, Option.isSome_some])
    dsimp only
    rw [byte, mask, Nat.and_two_pow]
    cases (bytes (i / 8)).toNat.testBit (i % 8) <;> simp

lemma ArrayType.At.advance {arr : ArrayType} {i : Nat} {cur : ArrayCursor} (here : arr.At i cur) :
    arr.At (i + 1) (arr.advance cur) := by
  intro present
  obtain ⟨byte, mask⟩ := here present
  obtain ⟨bytes, bitmap⟩ := Option.isSome_iff_exists.mp present
  have shifted : cur.bitmask <<< 1 = 2 ^ (i % 8 + 1) := by rw [mask, Nat.shiftLeft_eq, Nat.pow_one, Nat.pow_succ]
  unfold ArrayType.advance
  rw [bitmap, shifted]
  dsimp only
  -- the eighth bit is the last one of a byte
  by_cases last : i % 8 = 7
  · rw [last, if_pos (by decide)]
    have next : (i + 1) / 8 = i / 8 + 1 ∧ (i + 1) % 8 = 0 := by omega
    exact ⟨by rw [byte, next.1], by rw [next.2, Nat.pow_zero]⟩
  · have below : i % 8 + 1 < 8 := by omega
    have same : (i + 1) / 8 = i / 8 ∧ (i + 1) % 8 = i % 8 + 1 := by omega
    rw [if_neg (Nat.ne_of_lt (Nat.pow_lt_pow_right (by decide) below))]
    exact ⟨by rw [byte, same.1], by rw [same.2]⟩

lemma ArrayType.advance_s (arr : ArrayType) (cur : ArrayCursor) : (arr.advance cur).s = cur.s := by
  unfold ArrayType.advance
  split
  · rfl
  · split <;> rfl

/-! ## The loop -/

lemma AndOr.dominant_connect (boolop : AndOr) (b : Option Bool) :
    boolop.connect (some boolop.dominant) b = some boolop.dominant := by
  cases boolop <;> rcases b with _ | _ | _ <;> rfl

/-- Behind the deciding value all others are of no effect. -/
lemma AndOr.foldl_dominant (boolop : AndOr) (bs : List (Option Bool)) :
    bs.foldl boolop.connect (some boolop.dominant) = some boolop.dominant := by
  induction bs with
  | nil => rfl
  | cons b bs ih => rw [List.foldl_cons, boolop.dominant_connect, ih]

lemma anyAllOp_dominant (useOr : Bool) : (anyAllOp useOr).dominant = useOr := by
  cases useOr <;> rfl

section Run

variable {access : ArrayAccess} {strictfunc useOr : Bool} {oper : SqlValue → SqlValue → NullableDatum}
  {scalar : SqlValue} {typ : TypInfo} {arr : ArrayType}

lemma thisResult_truth (called : (scalar.isNone && strictfunc) = false) (element : SqlValue) :
    (thisResult strictfunc oper scalar element).sql.map datumGetBool =
      operatorTruth strictfunc oper scalar element := by
  unfold thisResult operatorTruth
  cases strictfunc with
  | false => simp
  | true =>
    rw [Bool.and_true] at called
    rw [called]
    cases element with
    | none => rfl
    | some d => rfl

/-- One round of the loop: it ends with the value that decides, or it adds to the flag. -/
lemma scalarArrayLoop_succ (n : Nat) (cur : ArrayCursor) (result : NullableDatum) {b : Option Bool}
    (truth : (thisResult strictfunc oper scalar (nextElement access typ arr cur).1).sql.map datumGetBool = b) :
    scalarArrayLoop access strictfunc useOr oper scalar typ arr (n + 1) cur result =
      if b = some useOr then { value := boolGetDatum useOr, isnull := false }
      else scalarArrayLoop access strictfunc useOr oper scalar typ arr n
        (arr.advance { cur with s := (nextElement access typ arr cur).2 })
        { result with isnull := result.isnull || b.isNone } := by
  rw [scalarArrayLoop]
  generalize thisResult strictfunc oper scalar (nextElement access typ arr cur).1 = this at truth ⊢
  subst truth
  obtain ⟨value, isnull⟩ := this
  cases isnull with
  | true => simp [NullableDatum.sql]
  | false =>
    cases useOr <;> cases isTrue : datumGetBool value <;> simp [NullableDatum.sql, isTrue]

lemma nextElement_decodes {i : Nat} {cur : ArrayCursor} {element : SqlValue} {rest : List SqlValue}
    (here : arr.At i cur) (decodes : arr.DecodesFrom access typ i cur.s (element :: rest)) :
    (nextElement access typ arr cur).1 = element ∧
      arr.DecodesFrom access typ (i + 1) (nextElement access typ arr cur).2 rest := by
  unfold nextElement
  rw [here.nullAt]
  cases element with
  | none =>
    obtain ⟨null, later⟩ := decodes
    rw [if_pos null]
    exact ⟨rfl, later⟩
  | some d =>
    obtain ⟨present, fetched, later⟩ := decodes
    rw [if_neg (by rw [present]; decide)]
    exact ⟨congrArg some fetched, later⟩

/-- The loop connects the results of the operator on all elements. The invariant: no element has
decided so far, and `resultnull` says whether one gave NULL. -/
lemma scalarArrayLoop_folds (called : (scalar.isNone && strictfunc) = false) (elements : List SqlValue) :
    ∀ (i : Nat) (cur : ArrayCursor) (resultnull : Bool), arr.At i cur → arr.DecodesFrom access typ i cur.s elements →
      (scalarArrayLoop access strictfunc useOr oper scalar typ arr elements.length cur
          { value := boolGetDatum (!useOr), isnull := resultnull }).sql =
        boolSql ((elements.map (operatorTruth strictfunc oper scalar)).foldl (anyAllOp useOr).connect
          ((anyAllOp useOr).soFar resultnull)) := by
  induction elements with
  | nil =>
    intro _ _ resultnull _ _
    show NullableDatum.sql _ = boolSql ((anyAllOp useOr).soFar resultnull)
    rw [AndOr.soFar, anyAllOp_dominant]
    cases resultnull <;> rfl
  | cons element rest ih =>
    intro i cur resultnull here decodes
    obtain ⟨first, later⟩ := nextElement_decodes here decodes
    have truth : (thisResult strictfunc oper scalar (nextElement access typ arr cur).1).sql.map datumGetBool =
        operatorTruth strictfunc oper scalar element := by
      rw [first]
      exact thisResult_truth called element
    rw [List.length_cons, scalarArrayLoop_succ _ cur _ truth, List.map_cons, List.foldl_cons]
    by_cases decides : operatorTruth strictfunc oper scalar element = some useOr
    · -- the loop is left here: the elements behind change nothing
      have dominant : operatorTruth strictfunc oper scalar element = some (anyAllOp useOr).dominant := by
        rw [anyAllOp_dominant, decides]
      rw [if_pos decides, dominant, AndOr.connect_dominant, AndOr.foldl_dominant, anyAllOp_dominant]
      rfl
    · have undecided : operatorTruth strictfunc oper scalar element ≠ some (anyAllOp useOr).dominant := by
        rw [anyAllOp_dominant]
        exact decides
      rw [if_neg decides, AndOr.connect_soFar _ _ undecided]
      have moved : arr.At i { cur with s := (nextElement access typ arr cur).2 } := here
      refine ih (i + 1) _ _ moved.advance ?_
      rw [arr.advance_s]
      exact later

/-- A strict operator gives NULL for each element if the scalar is NULL. -/
lemma anyAll_strict_none (element : SqlValue) (rest : List SqlValue) :
    anyAll true useOr oper none (element :: rest) = none := by
  have stays : ∀ elements : List SqlValue,
      (elements.map (operatorTruth true oper none)).foldl (anyAllOp useOr).connect none = none := by
    intro elements
    induction elements with
    | nil => rfl
    | cons element rest ih =>
      have null : (anyAllOp useOr).connect none none = none := by cases useOr <;> rfl
      show ((rest.map _).foldl _ ((anyAllOp useOr).connect none none)) = none
      rw [null, ih]
  have null : (anyAllOp useOr).connect (some (!useOr)) none = none := by cases useOr <;> rfl
  show ((rest.map _).foldl _ ((anyAllOp useOr).connect (some (!useOr)) none)) = none
  rw [null, stays]

lemma ElementInfo.Current.lookup {info : ElementInfo} (current : info.Current access) (arr : ArrayType) :
    (info.lookup access arr).Current access := by
  unfold ElementInfo.lookup
  split
  · exact fun _ => rfl
  · exact current

lemma ElementInfo.Current.looked {info : ElementInfo} (current : info.Current access) {arr : ArrayType}
    (valid : arr.elemtype ≠ 0) : (info.lookup access arr).typ = access.getTyp arr.elemtype := by
  unfold ElementInfo.lookup
  split
  case isTrue => rfl
  case isFalse same =>
      rw [not_not] at same
      rw [← same] at valid ⊢
      exact current valid

lemma execEvalScalarArrayOp_folds {info : ElementInfo} {res : NullableDatum} {elements : List SqlValue}
    (current : info.Current access) (present : res.isnull = false)
    (decodes : (access.getArrayTypeP res.value).Decodes access elements) :
    (execEvalScalarArrayOp access strictfunc useOr oper scalar info res).1.sql =
      boolSql (anyAll strictfunc useOr oper scalar elements) := by
  unfold execEvalScalarArrayOp
  rw [if_neg (by rw [present]; decide)]
  dsimp only
  rw [decodes.nitems]
  cases elements with
  | nil => rfl
  | cons element rest =>
    have more : (element :: rest).length ≠ 0 := Nat.succ_ne_zero rest.length
    rw [if_neg more]
    cases skipped : scalar.isNone && strictfunc with
    | true =>
      obtain ⟨null, rfl⟩ := Bool.and_eq_true_iff.mp skipped
      rw [Option.isNone_iff_eq_none.mp null, anyAll_strict_none element rest, if_pos rfl]
      rfl
    | false =>
      have start : some (!useOr) = (anyAllOp useOr).soFar false := by
        rw [AndOr.soFar, anyAllOp_dominant]
        rfl
      rw [if_neg Bool.false_ne_true, anyAll, start]
      refine scalarArrayLoop_folds skipped (element :: rest) 0 _ false (fun _ => ⟨rfl, rfl⟩) ?_
      rw [current.looked decodes.elemtype]
      exact decodes.elements

lemma execEvalScalarArrayOp_current {info : ElementInfo} (current : info.Current access) (res : NullableDatum) :
    (execEvalScalarArrayOp access strictfunc useOr oper scalar info res).2.Current access := by
  unfold execEvalScalarArrayOp
  dsimp only
  split
  · exact current
  split
  · exact current
  split
  · exact current
  · exact current.lookup _

end Run

/-! ## The expression -/

/-- The out-of-line function of the step is `execEvalScalarArrayOp`, and the type information
that the step has kept is current. -/
def EvaluatesScalarArrayOp (w : World) (access : ArrayAccess) (f : Func) (useOr : Bool)
    (oper : SqlValue → SqlValue → NullableDatum) : Prop :=
  ∀ (trace : List Call) (scalar array : SqlValue), ∃ (info : ElementInfo) (res : NullableDatum),
    info.Current access ∧ res.sql = array ∧
    w.answer trace (.helper (.scalarArrayOp f useOr) [scalar, array]) =
      .ok [(execEvalScalarArrayOp access f.fnStrict useOr oper scalar info res).1]

/-- **The three-valued OR or AND over all elements.** `ExecEvalScalarArrayOp` gives NULL if the
array is NULL, and otherwise connects the operator's results on all elements; it keeps the type
information current. The program of the expression leaves the same value for the values of its
two arguments. -/
theorem execEvalScalarArrayOp_anyAll (access : ArrayAccess) (f : Func) (useOr : Bool)
    (oper : SqlValue → SqlValue → NullableDatum) :
    (∀ (scalar : SqlValue) (info : ElementInfo) (res : NullableDatum) (elements : List SqlValue),
      info.Current access →
      (res.isnull = false → (access.getArrayTypeP res.value).Decodes access elements) →
      let out := execEvalScalarArrayOp access f.fnStrict useOr oper scalar info res
      out.1.sql = (if res.isnull then none else boolSql (anyAll f.fnStrict useOr oper scalar elements)) ∧
        out.2.Current access) ∧
    ∀ (w : World) (setup : Setup) (scalararg arrayarg : Node) (m : Machine) (slots : SlotName → Slot)
      (scalar array : SqlValue) (elements : List SqlValue) (trace trace₁ trace₂ : List Call),
      let e : Node := .scalarArrayOpExpr f useOr scalararg arrayarg
      EvaluatesScalarArrayOp w access f useOr oper → e.proper = true →
      (Source.expr e).deform w setup m.slots m.trace = .value slots trace →
      Loaded (execInitExpr setup e).stores m →
      scalararg.value w slots setup (.top w) trace = .value scalar trace₁ →
      arrayarg.value w slots setup (.top w) trace₁ = .value array trace₂ →
      (∀ d, array = some d → (access.getArrayTypeP d).Decodes access elements) →
      ∃ m', execInterpExpr w (execInitExpr setup e).steps m = .finished m' ∧
        (m'.mem .result).sql = array.bind fun _ => boolSql (anyAll f.fnStrict useOr oper scalar elements) := by
  have value (scalar : SqlValue) (info : ElementInfo) (res : NullableDatum) (elements : List SqlValue)
      (current : info.Current access)
      (decodes : res.isnull = false → (access.getArrayTypeP res.value).Decodes access elements) :
      (execEvalScalarArrayOp access f.fnStrict useOr oper scalar info res).1.sql =
        if res.isnull then none else boolSql (anyAll f.fnStrict useOr oper scalar elements) := by
    cases null : res.isnull with
    | true =>
      rw [execEvalScalarArrayOp, if_pos null, if_pos rfl, NullableDatum.sql, if_pos null]
    | false => exact execEvalScalarArrayOp_folds current null (decodes null)
  refine ⟨fun scalar info res elements current decodes =>
    ⟨value scalar info res elements current decodes, execEvalScalarArrayOp_current current res⟩, ?_⟩
  intro w setup scalararg arrayarg m slots scalar array elements trace trace₁ trace₂ e evaluates proper deformed
    loaded first second decodes
  obtain ⟨W, outcome⟩ := execInitExpr_outcome proper deformed loaded
  obtain ⟨info, res, current, same, answered⟩ := evaluates trace₂ scalar array
  have evaluated : e.value w slots setup (.top w) trace =
      .value (execEvalScalarArrayOp access f.fnStrict useOr oper scalar info res).1.sql
        (trace₂ ++ [.helper (.scalarArrayOp f useOr) [scalar, array]]) := by
    show Eval.bind (scalararg.value w slots setup (.top w)) (fun x =>
      Eval.bind (arrayarg.value w slots setup (.top w)) fun array =>
      Eval.bind (Eval.call w (.helper (.scalarArrayOp f useOr) [x, array])) fun ds =>
        Eval.pure (returned ds).sql) trace = _
    simp only [Eval.bind, first, second, Eval.call, answered]
    rfl
  rw [evaluated] at outcome
  obtain ⟨m', finished, _, _, held⟩ := outcome
  refine ⟨m', finished, held.trans ?_⟩
  rw [value scalar info res elements current fun present => ?_]
  · subst same
    cases null : res.isnull <;> simp [NullableDatum.sql, null]
  · refine decodes res.value ?_
    rw [← same, NullableDatum.sql, if_neg (by rw [present]; decide)]

-- an empty array decides by itself, also for a NULL scalar and a strict operator
example (oper : SqlValue → SqlValue → NullableDatum) : anyAll true true oper none [] = some false := rfl

/-- All arrays are `{7, NULL, 5}`, with data from address 0 on and eight bytes for an element. -/
def threeElements : ArrayAccess where
  getArrayTypeP _ := { elemtype := 20, nitems := 3, nullBitmap := some fun _ => 0b101, dataPtr := 0 }
  getTyp _ := { typlen := 8, typbyval := true, typalign := 'd' }
  fetchAtt _ s := if s = 0 then 7 else 5
  behind typ s := s + typ.typlen.toNat

def equalDatums (x y : SqlValue) : NullableDatum := { value := boolGetDatum (x == y), isnull := false }

/-- A world in which a step meets its first array. -/
def threeElementsWorld : World where
  answer _ c := match c with
    | .helper (.scalarArrayOp f useOr) [scalar, array] =>
      .ok [(execEvalScalarArrayOp threeElements f.fnStrict useOr equalDatums scalar
        { elementType := 0, typ := { typlen := 0, typbyval := false, typalign := 'c' } }
        { value := array.getD 0, isnull := array.isNone }).1]
    | _ => .error "not called"
  caseValue := nullDatum
  domainValue := nullDatum
  aggValue _ := nullDatum

/-- `5 = ANY ('{7, NULL, 5}')` is true. -/
theorem anyAll_threeElements : ∃ m', execInterpExpr threeElementsWorld
        (execInitExpr sampleSetup (.scalarArrayOpExpr int4eq true (.const { value := 5, isnull := false })
          (.const { value := 1, isnull := false }))).steps (columnMachine nullDatum) = .finished m' ∧
      (m'.mem .result).sql = some 1 := by
  refine (execEvalScalarArrayOp_anyAll threeElements int4eq true equalDatums).2 threeElementsWorld sampleSetup
    (.const { value := 5, isnull := false }) (.const { value := 1, isnull := false }) (columnMachine nullDatum)
    (columnMachine nullDatum).slots (some 5) (some 1) [some 7, none, some 5] [] [] [] ?_ (by decide) rfl nofun rfl rfl ?_
  · intro trace scalar array
    refine ⟨{ elementType := 0, typ := { typlen := 0, typbyval := false, typalign := 'c' } },
      { value := array.getD 0, isnull := array.isNone }, fun looked => absurd rfl looked, ?_, rfl⟩
    cases array <;> rfl
  · intro d _
    exact ⟨rfl, (by decide : (20 : Oid) ≠ 0), rfl, rfl, rfl, rfl, rfl, trivial⟩

end Hex.Compiler
