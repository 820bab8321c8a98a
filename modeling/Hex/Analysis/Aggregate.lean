/-
# Analysis.Aggregate — predicted levels, from the table to the test run

`aggregate_predictions` (LevelPredict/utils/Aggreate.py) collects the predicted
levels of each pair of a database and a query in one row and fills the rows up to
one length; `to_csv` writes them as the levels file that the server reads with
`testME` on (`Kernel.LevelsFile`).

The server steps over the empty fields that fill a row up, takes the newline behind
them for one more level, which is 0, and does not know that the first line is a
header (`row_given`). None of this shows: a new statement is run with its predicted
levels and zeros (`predicted_levels`).
-/
import Hex.Kernel.LevelsFile

namespace Hex.Analysis.Aggregate

open Kernel.LevelSearch Kernel.LevelsFile
open Theory.CText Theory.WriteLog

structure Prediction where
  database : Text
  sqlId : Nat
  level : Nat
  deriving DecidableEq

def Prediction.key (row : Prediction) : Text × Nat := (row.database, row.sqlId)

/-- One round of the loop over the predictions. -/
def collect (data : Dict (Text × Nat) (List Text)) (row : Prediction) :
    Dict (Text × Nat) (List Text) :=
  match data.get? row.key with
  | some levels => data.set row.key (levels ++ [decimal row.level])
  | none => data.set row.key [decimal row.level]

def aggregatedData (rows : List Prediction) : Dict (Text × Nat) (List Text) :=
  rows.foldl collect .empty

/-- A row of the aggregated table, filled up for `maxExprCount` levels. -/
def filledRow (maxExprCount : Nat) (entry : (Text × Nat) × List Text) : List Text :=
  let row := [entry.1.1, decimal entry.1.2] ++ entry.2
  row ++ List.replicate (maxExprCount + 2 - row.length) []

/-- `aggregate_predictions`; `max` has no value for an empty table. -/
def aggregatePredictions (rows : List Prediction) : Option (List (List Text)) :=
  let data := aggregatedData rows
  ((data.entries.map fun entry => entry.2.length).max?).map fun maxExprCount =>
    data.entries.map (filledRow maxExprCount)

def csvLine (fields : List Text) : Text := [','].intercalate fields

/-- `to_csv(index=False)`: the column numbers, then the rows. -/
def toCsv (table : List (List Text)) : Text :=
  let columns := (table.map List.length).max?.getD 0
  fileOf ((csvLine ((List.range columns).map decimal)) :: table.map csvLine)

def levelsCsv (rows : List Prediction) : Option Text := (aggregatePredictions rows).map toCsv

/-- The predicted levels of a query in a database, in the order of the table. -/
def predicted (rows : List Prediction) (database : Text) (queryId : Int) : List Nat :=
  (rows.filter fun row => row.database = database ∧ (row.sqlId : Int) = queryId).map (·.level)

/-! ## The collected levels -/

def levelsOf (rows : List Prediction) (key : Text × Nat) : List Nat :=
  (rows.filter fun row => row.key = key).map (·.level)

lemma levelsOf_concat (rows : List Prediction) (row : Prediction) (key : Text × Nat) : levelsOf (rows ++ [row]) key =
      levelsOf rows key ++ if row.key = key then [row.level] else [] := by
  by_cases here : row.key = key <;> simp [levelsOf, List.filter_append, here]

lemma get?_collect (data : Dict (Text × Nat) (List Text)) (row : Prediction) (key : Text × Nat) :
    (collect data row).get? key = if key = row.key then
      some ((data.get? key).getD [] ++ [decimal row.level]) else data.get? key := by
  rw [collect]
  cases found : data.get? row.key with
  | none | some =>
    rw [Dict.get?_set]
    by_cases here : key = row.key <;> simp [here, found]

lemma get?_aggregatedData (rows : List Prediction) (key : Text × Nat) :
    (aggregatedData rows).get? key = if levelsOf rows key = [] then none
      else some ((levelsOf rows key).map decimal) := by
  induction rows using List.reverseRecOn with
  | nil => rfl
  | append_singleton rows row ih =>
    have step : aggregatedData (rows ++ [row]) = collect (aggregatedData rows) row := by
      simp [aggregatedData]
    rw [step, get?_collect, ih, levelsOf_concat]
    by_cases here : row.key = key
    · by_cases first : levelsOf rows key = [] <;> simp [here, first]
    · simp [here, Ne.symm here]

lemma levels_of_entry {rows : List Prediction} {key : Text × Nat} {levels : List Text}
    (member : (key, levels) ∈ (aggregatedData rows).entries) :
    levelsOf rows key ≠ [] ∧ levels = (levelsOf rows key).map decimal := by
  rw [Dict.mem_entries, get?_aggregatedData] at member
  by_cases none_ : levelsOf rows key = []
  · simp [none_] at member
  · simp only [none_, if_false, Option.some.injEq] at member
    exact ⟨none_, member.symm⟩

/-! ## What the server makes of a row -/

section Row

variable {database : Text} {queryId : Int}

lemma trim_decimal (n : Nat) : trimEnd (trimStart (decimal n)) = decimal n := by
  rw [trimStart_eq_self fun c => isSpace_of_mem_decimal,
    trimEnd_eq_self fun c => isSpace_of_mem_decimal]

lemma trim_decimal_newline (n : Nat) : trimEnd (trimStart (decimal n ++ [newline])) = decimal n := by
  obtain ⟨c, rest, digits⟩ := List.exists_cons_of_ne_nil (decimal_ne_nil n)
  have blank : isSpace c = false := isSpace_of_mem_decimal (n := n) (by simp [digits])
  have start : trimStart (decimal n ++ [newline]) = decimal n ++ [newline] := by
    simp [trimStart, digits, blank]
  rw [start, trimEnd_newline (fun c => isSpace_of_mem_decimal) (decimal_ne_nil n)]

lemma number_of_trim {field : Text} {n : Nat} (written : trimEnd (trimStart field) = decimal n) (small : n < 2 ^ 31) :
    number field = some (n : Int) := by
  have value : strtol (decimal n) = ((n : Int), []) := strtol_decimal (by omega)
  simp [number, written, value, toInt_of_lt small]

lemma number_newline : number [newline] = some 0 := by decide

lemma levelIn_numbers {fields : List Text} {levels : List Nat} (read : fields.map number = levels.map fun l : Nat => some (l : Int))
    (exist : ∀ l ∈ levels, l ≤ 3) (p : Nat) : levelIn fields p = levels[p]?.map fun l : Nat => (l : Int) := by
  have level : ∀ l ∈ levels, isLevel (l : Int) = true := fun l member => by
    simpa [isLevel] using exist l member
  have inside : ∀ field ∈ fields.take p, ∀ value ∈ number field, isLevel value := by
    intro field member value is
    have among : number field ∈ levels.map fun l : Nat => some (l : Int) :=
      read ▸ List.mem_map_of_mem (List.mem_of_mem_take member)
    obtain ⟨l, there, same⟩ := List.mem_map.mp among
    rw [← same] at is
    exact Option.some.inj is ▸ level l there
  have here : fields[p]?.map number = levels[p]?.map fun l : Nat => some (l : Int) := by
    rw [← List.getElem?_map, read, List.getElem?_map]
  have bound : fields[p]?.bind number = (fields[p]?.map number).join := by cases fields[p]? <;> rfl
  rw [levelIn, if_pos inside, bound, here]
  cases found : levels[p]? with
  | none => rfl
  | some l => simp [Option.filter, level l (List.mem_of_getElem? found)]

/-- A name that is written without quotes. -/
structure PlainName (name : Text) : Prop where
  nonempty : name ≠ []
  noComma : ',' ∉ name
  noQuote : '"' ∉ name
  noBlank : ∀ c ∈ name, isSpace c = false
  noNul : Char.ofNat 0 ∉ name

lemma comma_not_mem_decimal (n : Nat) : ',' ∉ decimal n := by
  intro member
  exact absurd (isDigit_of_mem_decimal member) (by decide)

lemma nul_not_mem_decimal (n : Nat) : Char.ofNat 0 ∉ decimal n := by
  intro member
  exact absurd (isDigit_of_mem_decimal member) (by decide)

lemma PlainName.noNewline {name : Text} (plain : PlainName name) : newline ∉ name := by
  intro member
  exact absurd (plain.noBlank newline member) (by decide)

lemma cString_eq_self {t : Text} (plain : Char.ofNat 0 ∉ t) : cString t = t := by
  rw [cString, List.takeWhile_eq_self_iff]
  intro c member
  simp only [decide_eq_true_eq]
  rintro rfl
  exact plain member

/-- A line is seen whole when no field has a byte 0. -/
lemma cString_csvLine {fields : List Text} (plain : ∀ field ∈ fields, Char.ofNat 0 ∉ field) :
    cString (csvLine fields ++ [newline]) = csvLine fields ++ [newline] := by
  apply cString_eq_self
  intro member
  obtain inside | end_ := List.mem_append.mp member
  · obtain comma | ⟨field, among, nul⟩ := mem_intercalate inside
    · exact absurd comma (by decide)
    · exact plain field among nul
  · exact absurd (by simpa using end_) (by decide : ¬ Char.ofNat 0 = newline)

lemma tokens_csvLine {fields : List Text} (last : Text) (plain : ∀ t ∈ fields, ',' ∉ t)
    (plainLast : ',' ∉ last) : tokens ',' (csvLine (fields ++ [last]) ++ [newline]) =
      fields.filter (· ≠ []) ++ [last ++ [newline]] := by
  have commas : ∀ t ∈ fields ++ [last ++ [newline]], ',' ∉ t := by
    intro t member
    obtain early | rfl := by simpa using member
    · exact plain t early
    · simpa [newline] using plainLast
  rw [csvLine, intercalate_append, tokens_intercalate commas (by simp)]
  simp [List.filter_append]

lemma filter_decimals (levels : List Nat) : (levels.map decimal).filter (· ≠ []) = levels.map decimal := by
  rw [List.filter_eq_self]
  intro t member
  obtain ⟨level, -, rfl⟩ := List.mem_map.mp member
  simpa using decimal_ne_nil level

/-- The name and the number of a row decide whether its levels are read. -/
lemma given_fields {name line : Text} (plain : PlainName name) {id : Nat} (small : id < 2 ^ 31) {fields : List Text}
    (cut : tokens ',' (cString line) = name :: decimal id :: fields) {p : Nat} (inside : p < exprMaxNum) :
    given database queryId line p =
      if sameIgnoringCase database name ∧ queryId = id then levelIn fields p else none := by
  have read := number_of_trim (trim_decimal id) small
  simp [given, cut, trimStart_eq_self plain.noBlank, read, inside]

/-- The fields of a row: its levels, and a 0 behind them when the row was filled up. -/
lemma row_fields {name : Text} (plain : PlainName name) (id : Nat) {levels : List Nat} (some : levels ≠ [])
    (exist : ∀ l ∈ levels, l ≤ 3) {maxExprCount : Nat} (most : levels.length ≤ maxExprCount) :
    ∃ fields values, tokens ',' (cString (csvLine (filledRow maxExprCount ((name, id), levels.map decimal)) ++ [newline])) =
        name :: decimal id :: fields ∧ fields.map number = values.map (fun l : Nat => .some (l : Int)) ∧
      (values = levels ∨ values = levels ++ [0]) := by
  have noCommas : ∀ ls : List Nat, ∀ t ∈ name :: decimal id :: ls.map decimal, ',' ∉ t := by
    intro ls t member
    obtain rfl | rfl | ⟨l, -, rfl⟩ := by simpa using member
    · exact plain.noComma
    · exact comma_not_mem_decimal id
    · exact comma_not_mem_decimal l
  have kept : ∀ ls : List Nat, (name :: decimal id :: ls.map decimal).filter (· ≠ []) =
      name :: decimal id :: ls.map decimal := by
    intro ls
    have rest := filter_decimals ls
    simp only [ne_eq, decide_not] at rest
    simp [plain.nonempty, decimal_ne_nil, rest]
  have nuls : ∀ field ∈ filledRow maxExprCount ((name, id), levels.map decimal),
      Char.ofNat 0 ∉ field := by
    intro field among
    simp only [filledRow, List.cons_append, List.nil_append, List.mem_cons, List.mem_append,
      List.mem_map, List.mem_replicate] at among
    obtain rfl | rfl | (⟨l, -, rfl⟩ | ⟨-, rfl⟩) := among
    · exact plain.noNul
    · exact nul_not_mem_decimal id
    · exact nul_not_mem_decimal l
    · simp
  have numbers : ∀ ls : List Nat, (∀ l ∈ ls, l ≤ 3) →
      (ls.map decimal).map number = ls.map fun l : Nat => .some (l : Int) := by
    intro ls exist
    rw [List.map_map]
    exact List.map_congr_left fun l member => number_of_trim (trim_decimal l) (Nat.lt_of_le_of_lt (exist l member) (by decide))
  rw [cString_csvLine nuls]
  by_cases filled : levels.length < maxExprCount
  · obtain ⟨pad, count⟩ : ∃ pad, maxExprCount = levels.length + pad + 1 :=
      ⟨maxExprCount - levels.length - 1, by omega⟩
    have fields : filledRow maxExprCount ((name, id), levels.map decimal) =
        (name :: decimal id :: levels.map decimal ++ List.replicate pad []) ++ [[]] := by
      have fill : maxExprCount + 2 - (levels.length + 1 + 1) = pad + 1 := by omega
      simp [filledRow, fill, List.replicate_succ']
    have commas : ∀ t ∈ name :: decimal id :: levels.map decimal ++ List.replicate pad [], ',' ∉ t := by
      intro t member
      obtain early | ⟨-, rfl⟩ := by
        simpa only [List.mem_append, List.mem_replicate] using member
      · exact noCommas levels t early
      · simp
    have none_ : (List.replicate pad ([] : Text)).filter (· ≠ []) = [] := by simp
    refine ⟨levels.map decimal ++ [[newline]], levels ++ [0], ?_, ?_, .inr rfl⟩
    · rw [fields, tokens_csvLine [] commas (by simp), List.filter_append, kept, none_, List.append_nil, List.nil_append]
      rfl
    · rw [List.map_append, numbers levels exist, List.map_append, List.map_singleton, number_newline]
      rfl
  · obtain rfl | ⟨init, last, rfl⟩ := List.eq_nil_or_concat' levels
    · exact absurd rfl some
    · have fields : filledRow maxExprCount ((name, id), (init ++ [last]).map decimal) =
          (name :: decimal id :: init.map decimal) ++ [decimal last] := by
        have fill : maxExprCount + 2 - (init.length + 1 + 1 + 1) = 0 := by
          simp only [List.length_append, List.length_singleton] at filled
          omega
        simp [filledRow, fill]
      obtain ⟨early, late⟩ := List.forall_mem_append.mp exist
      have small : last < 2 ^ 31 := Nat.lt_of_le_of_lt (late last (List.mem_singleton.mpr rfl)) (by decide)
      refine ⟨init.map decimal ++ [decimal last ++ [newline]], init ++ [last], ?_, ?_, .inl rfl⟩
      · rw [fields, tokens_csvLine _ (noCommas init) (comma_not_mem_decimal last), kept]
        rfl
      · rw [List.map_append, numbers init early, List.map_append, List.map_singleton, List.map_singleton,
          number_of_trim (trim_decimal_newline last) small]

variable (database queryId) in
/-- **What a row of the file gives the server**, if it is for the query: its levels, and no others than 0
behind them. -/
theorem row_given {name : Text} (plain : PlainName name) {id : Nat} (small : id < 2 ^ 31)
    {levels : List Nat} (some : levels ≠ []) (exist : ∀ l ∈ levels, l ≤ 3) {maxExprCount : Nat}
    (most : levels.length ≤ maxExprCount) {p : Nat} (inside : p < exprMaxNum) :
    ∃ level : Option Int, level.getD 0 = ((levels.getD p 0 : Nat) : Int) ∧
      given database queryId (csvLine (filledRow maxExprCount ((name, id), levels.map decimal)) ++ [newline]) p =
        if sameIgnoringCase database name ∧ queryId = id then level else none := by
  obtain ⟨fields, values, cut, read, which⟩ := row_fields plain id some exist most
  refine ⟨levelIn fields p, ?_, given_fields plain small cut inside⟩
  have small : ∀ l ∈ values, l ≤ 3 := by
    obtain rfl | rfl := which
    · exact exist
    · exact List.forall_mem_append.mpr ⟨exist, by simp⟩
  have same : values.getD p 0 = levels.getD p 0 := by
    obtain rfl | rfl := which
    · rfl
    · simp only [List.getD_eq_getElem?_getD]
      by_cases here : p < levels.length
      · rw [List.getElem?_append_left here]
      · rw [List.getElem?_append_right (Nat.le_of_not_lt here), List.getElem?_eq_none (Nat.le_of_not_lt here)]
        cases p - levels.length <;> rfl
  rw [levelIn_numbers read small, ← same, List.getD_eq_getElem?_getD]
  cases values[p]? <;> rfl

end Row

/-! ## The whole file -/

/-- Names of databases that the format can tell apart. -/
structure DatabaseNames (names : List Text) : Prop where
  plain : ∀ name ∈ names, PlainName name
  notZero : ∀ name ∈ names, name ≠ ['0']
  distinct : ∀ a ∈ names, ∀ b ∈ names, sameIgnoringCase a b → a = b

/-- No other letter folds to the digit 0. -/
lemma toLower_eq_zero {c : Char} (zero : c.toLower = '0') : c = '0' := by
  unfold Char.toLower at zero
  split at zero
  case isFalse => exact zero
  case isTrue upper =>
      have low := UInt32.le_iff_toNat_le.mp upper.1
      have high := UInt32.le_iff_toNat_le.mp upper.2
      have code : (c.val + ('a'.val - 'A'.val)).toNat = 48 :=
        congrArg (fun d : Char => d.val.toNat) zero
      rw [UInt32.toNat_add] at code
      have shift : ('a'.val - 'A'.val).toNat = 32 := by decide
      have first : 'A'.val.toNat = 65 := by decide
      have last : 'Z'.val.toNat = 90 := by decide
      omega

lemma sameIgnoringCase_zero {name : Text} (other : name ≠ ['0']) : sameIgnoringCase name ['0'] = false := by
  rw [Bool.eq_false_iff]
  intro same
  apply other
  simp only [sameIgnoringCase, List.map_cons, List.map_nil, beq_iff_eq,
    List.map_eq_singleton_iff] at same
  obtain ⟨c, rfl, zero⟩ := same
  rw [toLower_eq_zero zero]

lemma header_given {database : Text} (queryId : Int) (other : database ≠ ['0']) (columns : Nat) :
    flawless database queryId (csvLine ((List.range (columns + 2)).map decimal) ++ [newline]) = false ∧
      ∀ p, given database queryId (csvLine ((List.range (columns + 2)).map decimal) ++ [newline]) p = none := by
  have fields : (List.range (columns + 2)).map decimal =
      (['0'] :: ((List.range columns).map Nat.succ).map decimal) ++ [decimal (columns + 1)] := by
    rw [List.range_succ, List.range_succ_eq_map]
    simp [decimal]
  have commas : ∀ t ∈ ['0'] :: ((List.range columns).map Nat.succ).map decimal, ',' ∉ t := by
    intro t member
    obtain rfl | later := List.mem_cons.mp member
    · decide
    · obtain ⟨n, -, rfl⟩ := List.mem_map.mp later
      exact comma_not_mem_decimal n
  have plain : cString (csvLine ((List.range (columns + 2)).map decimal) ++ [newline]) =
      csvLine ((List.range (columns + 2)).map decimal) ++ [newline] := by
    apply cString_csvLine
    intro field among
    obtain ⟨n, -, rfl⟩ := List.mem_map.mp among
    exact nul_not_mem_decimal n
  have first : sameIgnoringCase database (trimStart ['0']) = false := sameIgnoringCase_zero other
  have cut : tokens ',' (csvLine ((List.range (columns + 2)).map decimal) ++ [newline]) =
      ['0'] :: (((List.range columns).map Nat.succ).map decimal ++ [decimal (columns + 1) ++ [newline]]) := by
    rw [fields, tokens_csvLine _ commas (comma_not_mem_decimal _), List.filter_cons_of_pos (by simp),
      filter_decimals, List.cons_append]
  obtain ⟨second, fields, more⟩ : ∃ second fields, ((List.range columns).map Nat.succ).map decimal ++
      [decimal (columns + 1) ++ [newline]] = second :: fields := List.exists_cons_of_ne_nil (by simp)
  rw [more] at cut
  constructor
  · simp [flawless, plain, cut, first]
  · simp [given, plain, cut, first]

/-- What is known of an entry of the aggregated table. -/
structure EntryOf (rows : List Prediction) (entry : (Text × Nat) × List Text) : Prop where
  levels : entry.2 = (levelsOf rows entry.1).map decimal
  some : levelsOf rows entry.1 ≠ []
  row : ∃ row ∈ rows, row.key = entry.1

lemma entryOf {rows : List Prediction} {entry : (Text × Nat) × List Text}
    (member : entry ∈ (aggregatedData rows).entries) : EntryOf rows entry := by
  obtain ⟨key, texts⟩ := entry
  obtain ⟨some, levels⟩ := levels_of_entry member
  refine ⟨levels, some, ?_⟩
  obtain ⟨level, inside⟩ := List.exists_mem_of_ne_nil _ some
  obtain ⟨row, kept, -⟩ := List.mem_map.mp inside
  rw [List.mem_filter] at kept
  exact ⟨row, kept.1, by simpa using kept.2⟩

/-- The prediction tables the format is made for, and the database of a statement
that is to be run with them. -/
structure Predicts (rows : List Prediction) (database : Text) : Prop where
  names : DatabaseNames (database :: rows.map (·.database))
  queries : ∀ row ∈ rows, 1 ≤ row.sqlId ∧ row.sqlId ≤ 22
  exist : ∀ row ∈ rows, row.level ≤ 3
  few : ∀ row ∈ rows, (levelsOf rows row.key).length ≤ exprMaxNum

section File

variable {rows : List Prediction} {database : Text}

lemma Predicts.plain (predicts : Predicts rows database) {key : Text × Nat}
    (known : ∃ row ∈ rows, row.key = key) : PlainName key.1 := by
  obtain ⟨row, member, rfl⟩ := known
  exact predicts.names.plain _ (by simpa using .inr ⟨row, member, rfl⟩)

lemma Predicts.levels (predicts : Predicts rows database) (key : Text × Nat) : ∀ l ∈ levelsOf rows key, l ≤ 3 := by
  intro l member
  obtain ⟨row, kept, rfl⟩ := List.mem_map.mp member
  exact predicts.exist row (List.mem_filter.mp kept).1

lemma Predicts.entry_given (predicts : Predicts rows database) (queryId : Int)
    {entry : (Text × Nat) × List Text} (known : EntryOf rows entry) {maxExprCount : Nat}
    (most : entry.2.length ≤ maxExprCount) {p : Nat} (inside : p < exprMaxNum) :
    ∃ level : Option Int, level.getD 0 = (((levelsOf rows entry.1).getD p 0 : Nat) : Int) ∧
      given database queryId (csvLine (filledRow maxExprCount entry) ++ [newline]) p =
        if entry.1.1 = database ∧ (entry.1.2 : Int) = queryId then level else none := by
  obtain ⟨⟨name, id⟩, texts⟩ := entry
  obtain ⟨levels, some, row⟩ := known
  dsimp only at levels some row most ⊢
  subst levels
  have small : id < 2 ^ 31 := by
    obtain ⟨r, member, key⟩ := row
    have range := predicts.queries r member
    have same : r.sqlId = id := congrArg Prod.snd key
    omega
  rw [List.length_map] at most
  obtain ⟨level, value, row_⟩ := row_given database queryId (predicts.plain row) small some
    (predicts.levels _) most inside
  refine ⟨level, value, row_.trans ?_⟩
  have names : sameIgnoringCase database name = true ↔ name = database := by
    constructor
    · intro same
      refine (predicts.names.distinct database (by simp) name ?_ same).symm
      obtain ⟨r, member, key⟩ := row
      have here : r.database = name := congrArg Prod.fst key
      simpa using .inr ⟨r, member, here⟩
    · rintro rfl
      simp [sameIgnoringCase]
  simp only [names, eq_comm (a := queryId)]

lemma levelsCsv_eq {file : Text} (written : levelsCsv rows = some file) :
    ∃ maxExprCount columns, file = fileOf (csvLine ((List.range (columns + 2)).map decimal) ::
        (aggregatedData rows).entries.map fun entry => csvLine (filledRow maxExprCount entry)) ∧
      ∀ entry ∈ (aggregatedData rows).entries, entry.2.length ≤ maxExprCount := by
  simp only [levelsCsv, aggregatePredictions, Option.map_map, Option.map_eq_some_iff] at written
  obtain ⟨maxExprCount, most, rfl⟩ := written
  rw [List.max?_eq_some_iff] at most
  obtain ⟨reached, most⟩ := most
  obtain ⟨entry, member, -⟩ := List.mem_map.mp reached
  have below : ∀ entry ∈ (aggregatedData rows).entries, entry.2.length ≤ maxExprCount :=
    fun entry member => most _ (List.mem_map_of_mem member)
  have width : ∀ entry ∈ (aggregatedData rows).entries,
      (filledRow maxExprCount entry).length = maxExprCount + 2 := by
    intro entry member
    have short := below entry member
    simp only [filledRow, List.cons_append, List.nil_append, List.length_cons, List.length_append,
      List.length_replicate]
    omega
  have columns : (((aggregatedData rows).entries.map (filledRow maxExprCount)).map
      List.length).max? = some (maxExprCount + 2) := by
    rw [List.max?_eq_some_iff]
    constructor
    · rw [List.map_map]
      exact List.mem_map.mpr ⟨entry, member, width entry member⟩
    · intro n inside
      rw [List.map_map] at inside
      obtain ⟨other, among, rfl⟩ := List.mem_map.mp inside
      exact (width other among).le
  refine ⟨maxExprCount, maxExprCount, ?_, below⟩
  rw [Function.comp_apply, toCsv, columns, List.map_map]
  rfl

lemma newline_not_mem_line (predicts : Predicts rows database) {maxExprCount : Nat}
    {entry : (Text × Nat) × List Text} (known : EntryOf rows entry) :
    newline ∉ csvLine (filledRow maxExprCount entry) := by
  intro member
  obtain comma | ⟨field, among, inside⟩ := mem_intercalate member
  · exact absurd comma (by decide)
  · simp only [filledRow, List.cons_append, List.nil_append, List.mem_cons, List.mem_append,
      known.levels, List.mem_map, List.mem_replicate] at among
    obtain rfl | rfl | (⟨l, -, rfl⟩ | ⟨-, rfl⟩) := among
    · exact (predicts.plain known.row).noNewline inside
    · exact newline_not_mem_decimal _ inside
    · exact newline_not_mem_decimal _ inside
    · simp at inside

lemma predicted_eq {key : Text × Nat} {queryId : Int} (matches_ : key.1 = database ∧ (key.2 : Int) = queryId) :
    predicted rows database queryId = levelsOf rows key := by
  obtain ⟨rfl, rfl⟩ := matches_
  simp only [predicted, levelsOf, Prediction.key, Prod.ext_iff, Nat.cast_inj]

lemma predicted_eq_nil {queryId : Int} (none_ : ∀ entry ∈ (aggregatedData rows).entries,
    ¬ (entry.1.1 = database ∧ (entry.1.2 : Int) = queryId)) : predicted rows database queryId = [] := by
  by_contra some
  obtain ⟨level, inside⟩ := List.exists_mem_of_ne_nil _ some
  obtain ⟨row, kept, -⟩ := List.mem_map.mp inside
  have matches_ : row.database = database ∧ (row.sqlId : Int) = queryId := by
    simpa using (List.mem_filter.mp kept).2
  have levels : predicted rows database queryId = levelsOf rows row.key := predicted_eq matches_
  have found : (row.key, (levelsOf rows row.key).map decimal) ∈ (aggregatedData rows).entries := by
    rw [Dict.mem_entries, get?_aggregatedData, if_neg (levels ▸ some)]
  exact none_ _ found matches_

lemma file_given (predicts : Predicts rows database) (queryId : Int) {file : Text}
    (written : levelsCsv rows = some file) (short : ∀ line ∈ lines file, line.length ≤ lineRoom) {p : Nat}
    (inside : p < exprMaxNum) :
    (lastGiven database queryId (lines file) p).getD 0 = (((predicted rows database queryId).getD p 0 : Nat) : Int) := by
  obtain ⟨maxExprCount, columns, rfl, most⟩ := levelsCsv_eq written
  have plain : ∀ line ∈ csvLine ((List.range (columns + 2)).map decimal) ::
      (aggregatedData rows).entries.map (fun entry => csvLine (filledRow maxExprCount entry)),
      newline ∉ line := by
    intro line member
    obtain rfl | later := List.mem_cons.mp member
    · intro inside
      obtain comma | ⟨field, among, here⟩ := mem_intercalate inside
      · exact absurd comma (by decide)
      · obtain ⟨n, -, rfl⟩ := List.mem_map.mp among
        exact newline_not_mem_decimal n here
    · obtain ⟨entry, among, rfl⟩ := List.mem_map.mp later
      exact newline_not_mem_line predicts (entryOf among)
  rw [lines_fileOf plain] at short
  have read := readLines_fileOf (n := lineRoom) plain (by
    intro line member
    have length := short (line ++ [newline]) (List.mem_map_of_mem member)
    simpa using length)
  have header := header_given queryId (predicts.names.notZero database (by simp)) columns
  have entries := fun entry member => predicts.entry_given queryId (entryOf member) (most entry member) inside
  rw [lastGiven, ← readLines_eq_lines, read, List.map_cons]
  dsimp only
  rw [header.1, if_neg Bool.false_ne_true, List.reverse_cons, List.findSome?_append, List.findSome?_singleton, header.2,
    Option.or_none]
  cases found : List.findSome? _ _ with
  | some v =>
    -- the row that gives a level is for the query
    obtain ⟨line, among, gives⟩ := List.exists_of_findSome?_eq_some found
    obtain ⟨entry, member, rfl⟩ : ∃ entry ∈ (aggregatedData rows).entries,
        csvLine (filledRow maxExprCount entry) ++ [newline] = line := by simpa using among
    obtain ⟨level, value, row⟩ := entries entry member
    rw [gives] at row
    split_ifs at row with own
    rw [predicted_eq own, ← value, ← row]
  | none =>
    by_cases own : ∃ entry ∈ (aggregatedData rows).entries, entry.1.1 = database ∧ (entry.1.2 : Int) = queryId
    · obtain ⟨entry, member, own⟩ := own
      obtain ⟨level, value, row⟩ := entries entry member
      have listed := List.mem_map_of_mem (f := (· ++ [newline]))
        (List.mem_map_of_mem (f := fun entry => csvLine (filledRow maxExprCount entry)) member)
      rw [if_pos own, List.findSome?_eq_none_iff.mp found _ (List.mem_reverse.mpr listed)] at row
      rw [predicted_eq own, ← value, ← row]
    · rw [predicted_eq_nil fun entry member is => own ⟨entry, member, is⟩]
      rfl

end File

/-- **A new statement is run with its predicted levels.** The file written for a
prediction table, with every line short enough for the server's buffer (1023 bytes
with the newline), gives the first test run of a statement the levels predicted for
its query in its database, in the order of the table, and zeros behind them; and
zeros throughout when nothing is predicted. -/
theorem predicted_levels {T : Type} [Zero T] (rows : List Prediction) (database : Text)
    (predicts : Predicts rows database) (file : Text) (written : levelsCsv rows = some file)
    (short : ∀ line ∈ lines file, line.length ≤ lineRoom) (cfg : Settings)
    (on : cfg.enableME = true ∧ cfg.testME = true) (mem : Malloc) (query : String) (queryId : Int)
    (s : Search T) (new : s.currentStatement.any (sameText query) = false)
    (position : Nat) (inside : position < exprMaxNum) :
    levelsInRun cfg mem query database queryId file s position =
      ((predicted rows database queryId).getD position 0 : Nat) := by
  have zero : ((execSimpleQuery cfg mem query s).currentExprJITLevels position).level = 0 := by
    simp [execSimpleQuery, on, new, newStatement, fill, inside, allAt, stored]
  rw [levelsInRun, if_pos on, testLevels_eq, replay_apply, zero, latest_storesOf]
  exact file_given predicts queryId written short inside

def twoQueries : List Prediction :=
  [⟨"tpch".toList, 3, 2⟩, ⟨"tpch".toList, 5, 1⟩, ⟨"tpch".toList, 5, 3⟩]

def newBackend : Search Nat where
  currentStatement := none
  minTotalTime := 0
  minExprTime := 0
  reserved2 := 0
  reserved3 := 0
  enableOPT3 := false
  useTheBest := false
  countExpr := false
  currentExprNum := 0
  currentExprJITLevels := fun _ => unwritten 0
  bestJITLevels := fun _ => unwritten 0
  bestCurrentJITLevels := fun _ => unwritten 0
  currentStatementExecNum := 0
  currentLevelsCount := 0

def testing : Settings :=
  { enableME := true, testME := true, enableQuartet := false, enableExprCount := false,
    reserved1 := 0 }

lemma predicts_twoQueries : Predicts twoQueries "tpch".toList where
  names :=
    { plain := by
        intro name member
        obtain rfl : name = "tpch".toList := by revert name; decide
        exact ⟨by decide, by decide, by decide, List.all_iff_forall_prop.mp (by decide), by decide⟩
      notZero := by decide
      distinct := by decide }
  queries := by decide
  exist := by decide
  few := by decide

theorem predicted_levels_two : levelsInRun testing ⟨fun _ => 7, fun _ => 7, fun _ => 7⟩ "select" "tpch".toList 5
      "0,1,2,3\ntpch,3,2,\ntpch,5,1,3\n".toList newBackend 1 = 3 :=
  predicted_levels twoQueries "tpch".toList predicts_twoQueries _ (by decide) (by decide) testing
    (by decide) _ "select" 5 newBackend (by decide) 1 (by decide)

end Hex.Analysis.Aggregate
