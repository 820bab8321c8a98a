/-
# Kernel.OpNames — the names of the steps

`getExprEvalOpNameById` and `getExprEvalOpValue` (utils/init/globals.c) turn the
code of a step into its name and a name into the code. The two have a table each;
`opValues_eq` says that they list the same names in the same order, and
`value_name` and `eq_name` that reading a name inverts writing it.
-/
import Hex.Theory.CText

namespace Hex.Kernel.OpNames

open Theory.CText

/-- `op_names` of `getExprEvalOpNameById`. -/
def opNames : List String :=
  ["EEOP_DONE", "EEOP_INNER_FETCHSOME", "EEOP_OUTER_FETCHSOME", "EEOP_SCAN_FETCHSOME",
   "EEOP_INNER_VAR", "EEOP_OUTER_VAR", "EEOP_SCAN_VAR", "EEOP_INNER_SYSVAR", "EEOP_OUTER_SYSVAR",
   "EEOP_SCAN_SYSVAR", "EEOP_WHOLEROW", "EEOP_ASSIGN_INNER_VAR", "EEOP_ASSIGN_OUTER_VAR",
   "EEOP_ASSIGN_SCAN_VAR", "EEOP_ASSIGN_TMP", "EEOP_ASSIGN_TMP_MAKE_RO", "EEOP_CONST",
   "EEOP_FUNCEXPR", "EEOP_FUNCEXPR_STRICT", "EEOP_FUNCEXPR_FUSAGE",
   "EEOP_FUNCEXPR_STRICT_FUSAGE", "EEOP_BOOL_AND_STEP_FIRST", "EEOP_BOOL_AND_STEP",
   "EEOP_BOOL_AND_STEP_LAST", "EEOP_BOOL_OR_STEP_FIRST", "EEOP_BOOL_OR_STEP",
   "EEOP_BOOL_OR_STEP_LAST", "EEOP_BOOL_NOT_STEP", "EEOP_QUAL", "EEOP_JUMP", "EEOP_JUMP_IF_NULL",
   "EEOP_JUMP_IF_NOT_NULL", "EEOP_JUMP_IF_NOT_TRUE", "EEOP_NULLTEST_ISNULL",
   "EEOP_NULLTEST_ISNOTNULL", "EEOP_NULLTEST_ROWISNULL", "EEOP_NULLTEST_ROWISNOTNULL",
   "EEOP_BOOLTEST_IS_TRUE", "EEOP_BOOLTEST_IS_NOT_TRUE", "EEOP_BOOLTEST_IS_FALSE",
   "EEOP_BOOLTEST_IS_NOT_FALSE", "EEOP_PARAM_EXEC", "EEOP_PARAM_EXTERN", "EEOP_PARAM_CALLBACK",
   "EEOP_CASE_TESTVAL", "EEOP_MAKE_READONLY", "EEOP_IOCOERCE", "EEOP_DISTINCT",
   "EEOP_NOT_DISTINCT", "EEOP_NULLIF", "EEOP_SQLVALUEFUNCTION", "EEOP_CURRENTOFEXPR",
   "EEOP_NEXTVALUEEXPR", "EEOP_ARRAYEXPR", "EEOP_ARRAYCOERCE", "EEOP_ROW",
   "EEOP_ROWCOMPARE_STEP", "EEOP_ROWCOMPARE_FINAL", "EEOP_MINMAX", "EEOP_FIELDSELECT",
   "EEOP_FIELDSTORE_DEFORM", "EEOP_FIELDSTORE_FORM", "EEOP_SBSREF_SUBSCRIPT", "EEOP_SBSREF_OLD",
   "EEOP_SBSREF_ASSIGN", "EEOP_SBSREF_FETCH", "EEOP_DOMAIN_TESTVAL", "EEOP_DOMAIN_NOTNULL",
   "EEOP_DOMAIN_CHECK", "EEOP_CONVERT_ROWTYPE", "EEOP_SCALARARRAYOP", "EEOP_XMLEXPR",
   "EEOP_AGGREF", "EEOP_GROUPING_FUNC", "EEOP_WINDOW_FUNC", "EEOP_SUBPLAN",
   "EEOP_ALTERNATIVE_SUBPLAN", "EEOP_AGG_STRICT_DESERIALIZE", "EEOP_AGG_DESERIALIZE",
   "EEOP_AGG_STRICT_INPUT_CHECK_ARGS", "EEOP_AGG_STRICT_INPUT_CHECK_NULLS",
   "EEOP_AGG_PLAIN_PERGROUP_NULLCHECK", "EEOP_AGG_PLAIN_TRANS_INIT_STRICT_BYVAL",
   "EEOP_AGG_PLAIN_TRANS_STRICT_BYVAL", "EEOP_AGG_PLAIN_TRANS_BYVAL",
   "EEOP_AGG_PLAIN_TRANS_INIT_STRICT_BYREF", "EEOP_AGG_PLAIN_TRANS_STRICT_BYREF",
   "EEOP_AGG_PLAIN_TRANS_BYREF", "EEOP_AGG_ORDERED_TRANS_DATUM", "EEOP_AGG_ORDERED_TRANS_TUPLE",
   "EEOP_LAST"]

def getExprEvalOpNameById (opIndex : Int) : Text :=
  (if opIndex < 0 then "UNKNOWN_EEOP" else opNames.getD opIndex.toNat "UNKNOWN_EEOP").toList

/-- The comparisons of `getExprEvalOpValue`, with what they return. -/
def opValues : List (String × Int) :=
  [("EEOP_DONE", 0), ("EEOP_INNER_FETCHSOME", 1), ("EEOP_OUTER_FETCHSOME", 2),
   ("EEOP_SCAN_FETCHSOME", 3), ("EEOP_INNER_VAR", 4), ("EEOP_OUTER_VAR", 5),
   ("EEOP_SCAN_VAR", 6), ("EEOP_INNER_SYSVAR", 7), ("EEOP_OUTER_SYSVAR", 8),
   ("EEOP_SCAN_SYSVAR", 9), ("EEOP_WHOLEROW", 10), ("EEOP_ASSIGN_INNER_VAR", 11),
   ("EEOP_ASSIGN_OUTER_VAR", 12), ("EEOP_ASSIGN_SCAN_VAR", 13), ("EEOP_ASSIGN_TMP", 14),
   ("EEOP_ASSIGN_TMP_MAKE_RO", 15), ("EEOP_CONST", 16), ("EEOP_FUNCEXPR", 17),
   ("EEOP_FUNCEXPR_STRICT", 18), ("EEOP_FUNCEXPR_FUSAGE", 19),
   ("EEOP_FUNCEXPR_STRICT_FUSAGE", 20), ("EEOP_BOOL_AND_STEP_FIRST", 21),
   ("EEOP_BOOL_AND_STEP", 22), ("EEOP_BOOL_AND_STEP_LAST", 23), ("EEOP_BOOL_OR_STEP_FIRST", 24),
   ("EEOP_BOOL_OR_STEP", 25), ("EEOP_BOOL_OR_STEP_LAST", 26), ("EEOP_BOOL_NOT_STEP", 27),
   ("EEOP_QUAL", 28), ("EEOP_JUMP", 29), ("EEOP_JUMP_IF_NULL", 30),
   ("EEOP_JUMP_IF_NOT_NULL", 31), ("EEOP_JUMP_IF_NOT_TRUE", 32), ("EEOP_NULLTEST_ISNULL", 33),
   ("EEOP_NULLTEST_ISNOTNULL", 34), ("EEOP_NULLTEST_ROWISNULL", 35),
   ("EEOP_NULLTEST_ROWISNOTNULL", 36), ("EEOP_BOOLTEST_IS_TRUE", 37),
   ("EEOP_BOOLTEST_IS_NOT_TRUE", 38), ("EEOP_BOOLTEST_IS_FALSE", 39),
   ("EEOP_BOOLTEST_IS_NOT_FALSE", 40), ("EEOP_PARAM_EXEC", 41), ("EEOP_PARAM_EXTERN", 42),
   ("EEOP_PARAM_CALLBACK", 43), ("EEOP_CASE_TESTVAL", 44), ("EEOP_MAKE_READONLY", 45),
   ("EEOP_IOCOERCE", 46), ("EEOP_DISTINCT", 47), ("EEOP_NOT_DISTINCT", 48), ("EEOP_NULLIF", 49),
   ("EEOP_SQLVALUEFUNCTION", 50), ("EEOP_CURRENTOFEXPR", 51), ("EEOP_NEXTVALUEEXPR", 52),
   ("EEOP_ARRAYEXPR", 53), ("EEOP_ARRAYCOERCE", 54), ("EEOP_ROW", 55),
   ("EEOP_ROWCOMPARE_STEP", 56), ("EEOP_ROWCOMPARE_FINAL", 57), ("EEOP_MINMAX", 58),
   ("EEOP_FIELDSELECT", 59), ("EEOP_FIELDSTORE_DEFORM", 60), ("EEOP_FIELDSTORE_FORM", 61),
   ("EEOP_SBSREF_SUBSCRIPT", 62), ("EEOP_SBSREF_OLD", 63), ("EEOP_SBSREF_ASSIGN", 64),
   ("EEOP_SBSREF_FETCH", 65), ("EEOP_DOMAIN_TESTVAL", 66), ("EEOP_DOMAIN_NOTNULL", 67),
   ("EEOP_DOMAIN_CHECK", 68), ("EEOP_CONVERT_ROWTYPE", 69), ("EEOP_SCALARARRAYOP", 70),
   ("EEOP_XMLEXPR", 71), ("EEOP_AGGREF", 72), ("EEOP_GROUPING_FUNC", 73),
   ("EEOP_WINDOW_FUNC", 74), ("EEOP_SUBPLAN", 75), ("EEOP_ALTERNATIVE_SUBPLAN", 76),
   ("EEOP_AGG_STRICT_DESERIALIZE", 77), ("EEOP_AGG_DESERIALIZE", 78),
   ("EEOP_AGG_STRICT_INPUT_CHECK_ARGS", 79), ("EEOP_AGG_STRICT_INPUT_CHECK_NULLS", 80),
   ("EEOP_AGG_PLAIN_PERGROUP_NULLCHECK", 81), ("EEOP_AGG_PLAIN_TRANS_INIT_STRICT_BYVAL", 82),
   ("EEOP_AGG_PLAIN_TRANS_STRICT_BYVAL", 83), ("EEOP_AGG_PLAIN_TRANS_BYVAL", 84),
   ("EEOP_AGG_PLAIN_TRANS_INIT_STRICT_BYREF", 85), ("EEOP_AGG_PLAIN_TRANS_STRICT_BYREF", 86),
   ("EEOP_AGG_PLAIN_TRANS_BYREF", 87), ("EEOP_AGG_ORDERED_TRANS_DATUM", 88),
   ("EEOP_AGG_ORDERED_TRANS_TUPLE", 89), ("EEOP_LAST", 90)]

def getExprEvalOpValue (opName : Text) : Int :=
  match opValues.find? fun entry => entry.1.toList = opName with
  | some entry => entry.2
  | none => -1

def IsCode (step : Int) : Prop := 0 ≤ step ∧ step ≤ 90

instance : DecidablePred IsCode := fun step => by
  unfold IsCode
  infer_instance

/-- A name has capital letters and underscores only. -/
def isNameChar (c : Char) : Bool := (65 ≤ c.toNat && c.toNat ≤ 90) || c.toNat == 95

lemma opNames_spelled : ∃ spelled : List Text,
    List.Forall₂ (fun name text => name = String.ofList text) opNames spelled ∧
      (spelled.map textCode).Nodup ∧ ∀ text ∈ spelled, text ≠ [] ∧ text.all isNameChar := by
  apply Exists.intro
  refine ⟨?names, ?distinct, ?plain⟩
  case names =>
    -- a literal is `String.ofList` of its characters: each `rfl` reads them off
    dsimp only [opNames]
    repeat' first | exact List.Forall₂.nil | rfl | apply List.Forall₂.cons
  case distinct => decide +kernel
  case plain => decide +kernel

lemma opNames_nodup : opNames.Nodup := by
  obtain ⟨spelled, names, distinct, _⟩ := opNames_spelled
  exact nodup_of_spelled names distinct

lemma length_opNames : opNames.length = 91 := rfl

lemma opValues_eq : opValues = opNames.zipIdx.map fun entry => (entry.1, (entry.2 : Int)) := rfl

lemma mem_opValues {name : String} {v : Int} : (name, v) ∈ opValues ↔ ∃ i : Nat, opNames[i]? = some name ∧ v = i := by
  simp [opValues_eq, List.mem_zipIdx_iff_getElem?, eq_comm]

lemma opNameById {i : Nat} {name : String} (entry : opNames[i]? = some name) :
    getExprEvalOpNameById i = name.toList := by
  have notNegative : ¬ (i : Int) < 0 := by omega
  simp [getExprEvalOpNameById, notNegative, entry]

lemma IsCode.name {step : Int} (code : IsCode step) :
    ∃ (i : Nat) (name : String), step = i ∧ opNames[i]? = some name := by
  obtain ⟨i, rfl⟩ := Int.eq_ofNat_of_zero_le code.1
  have inside : i < opNames.length := by
    have := code.2
    rw [length_opNames]
    omega
  exact ⟨i, opNames[i], rfl, List.getElem?_eq_getElem inside⟩

lemma name_plain {step : Int} (code : IsCode step) : getExprEvalOpNameById step ≠ [] ∧
    ∀ c ∈ getExprEvalOpNameById step, isNameChar c = true := by
  obtain ⟨i, name, rfl, entry⟩ := code.name
  obtain ⟨spelled, names, _, plain⟩ := opNames_spelled
  have member : name ∈ spelled.map String.ofList :=
    eq_map_of_spelled names ▸ List.mem_of_getElem? entry
  obtain ⟨text, inSpelled, rfl⟩ := List.mem_map.mp member
  rw [opNameById entry, String.toList_ofList]
  exact ⟨(plain text inSpelled).1, List.all_eq_true.mp (plain text inSpelled).2⟩

/-- **The name of a code is read as that code.** -/
theorem value_name {step : Int} (code : IsCode step) : getExprEvalOpValue (getExprEvalOpNameById step) = step := by
  obtain ⟨i, name, rfl, entry⟩ := code.name
  rw [opNameById entry, getExprEvalOpValue]
  split
  · rename_i found hit
    have same : found.1 = name := String.toList_injective (by simpa using List.find?_some hit)
    obtain ⟨j, there, value⟩ := mem_opValues.mp (List.mem_of_find?_eq_some hit)
    rw [same, ← entry] at there
    have index : i = j :=
      (List.getElem?_inj (List.getElem?_eq_some_iff.mp entry).1 opNames_nodup).mp there.symm
    rw [value, index]
  · rename_i miss
    rw [List.find?_eq_none] at miss
    exact absurd (decide_eq_true rfl) (miss (name, i) (mem_opValues.mpr ⟨i, entry, rfl⟩))

lemma eq_name {text : Text} {step : Int} (code : IsCode step)
    (value : getExprEvalOpValue text = step) : text = getExprEvalOpNameById step := by
  rw [getExprEvalOpValue] at value
  split at value
  · rename_i found hit
    obtain ⟨i, entry, number⟩ := mem_opValues.mp (List.mem_of_find?_eq_some hit)
    have same : found.1.toList = text := by simpa using List.find?_some hit
    rw [← value, number, opNameById entry, same]
  · have := code.1
    omega

end Hex.Kernel.OpNames
