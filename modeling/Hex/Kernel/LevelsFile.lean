/-
# Kernel.LevelsFile — the levels a test run is given

With `testME` on, `exec_simple_query` (tcop/postgres.c) takes the level vector of
a statement from a file: it looks for a line with the name of the database, the
number of the query and then the levels (`testLevels`).

The loop stores a level as soon as it has read it, and `match` is set to true
once, in front of both loops. So a line that turns out to be wrong has already
stored what stood in front of the mistake, and after the first line that does not
match no later line ends the search any more (`scanLines_eq`).

`given` says on the text of a line which levels it stores (`latest_lineStores`),
`selected` what a line of the format is, and `levels_from_file_iff` when the loop takes
its levels from the first such line for the query and from nothing else.
-/
import Hex.Kernel.LevelSearch
import Hex.Theory.CText
import Hex.Theory.WriteLog

namespace Hex.Kernel.LevelsFile

open LevelSearch
open Theory.CText Theory.WriteLog

/-- The ints of `currentExprJITLevels`. -/
abbrev Vector := Nat → Int

/-- What the loop works on: the vector, and `match`. -/
structure Scan where
  levels : Vector
  matched : Bool

/-- What the body of the token loop does with one token. -/
inductive Verdict where
  /-- nothing to object, nothing to store -/
  | passed
  /-- a level for a position -/
  | level (position : Nat) (value : Int)
  /-- `match = false`, and the next token is read -/
  | objected
  /-- `match = false; break` -/
  | stopped
  deriving DecidableEq, Repr

/-- The body of the token loop, for token number `n`. -/
def judge (database : Text) (queryId : Int) (n : Nat) (token : Text) : Verdict :=
  let token := trimStart token
  if n = 1 then
    if sameIgnoringCase database token then .passed else .stopped
  else
    let (number, endptr) := strtol (trimEnd token)
    let value := toInt number
    if endptr = [] then
      if n = 2 then if queryId = value then .passed else .stopped
      else if n - 2 ≤ exprMaxNum then
        if value < 0 ∨ 3 < value then .stopped else .level (n - 3) value
      else .stopped
    else .objected

def scanTokens (database : Text) (queryId : Int) : Nat → List Text → Scan → Scan
  | _, [], s => s
  | n, token :: rest, s =>
    match judge database queryId n token with
    | .passed => scanTokens database queryId (n + 1) rest s
    | .level position value =>
      scanTokens database queryId (n + 1) rest
        { s with levels := Function.update s.levels position value }
    | .objected => scanTokens database queryId (n + 1) rest { s with matched := false }
    | .stopped => { s with matched := false }

def scanLine (database : Text) (queryId : Int) (line : Text) (s : Scan) : Scan :=
  scanTokens database queryId 1 (tokens ',' (cString line)) s

def scanLines (database : Text) (queryId : Int) : List Text → Scan → Scan
  | [], s => s
  | line :: rest, s =>
    let s := scanLine database queryId line s
    if s.matched then s else scanLines database queryId rest s

/-- The bytes of a line that fit into `char line[1024]`. -/
def lineRoom : Nat := 1023

def testLevels (database : Text) (queryId : Int) (file : Text) (levels : Vector) : Vector :=
  (scanLines database queryId (readLines lineRoom lineRoom file) ⟨levels, true⟩).levels

/-- The level vector with which `exec_simple_query` starts to execute a statement. -/
def levelsInRun {T : Type} [Zero T] (cfg : Settings) (mem : Malloc) (query : String)
    (database : Text) (queryId : Int) (file : Text) (s : Search T) : Vector :=
  let levels := fun p => ((execSimpleQuery cfg mem query s).currentExprJITLevels p).level
  if cfg.enableME ∧ cfg.testME then testLevels database queryId file levels else levels

/-! ## The stores of a line -/

section Stores

variable (database : Text) (queryId : Int)

/-- What the rest of a line stores, from token number `n` on. -/
def tokenStores : Nat → List Text → List (Nat × Int)
  | _, [] => []
  | n, token :: rest =>
    match judge database queryId n token with
    | .passed => tokenStores (n + 1) rest
    | .level position value => (position, value) :: tokenStores (n + 1) rest
    | .objected => tokenStores (n + 1) rest
    | .stopped => []

/-- Whether the rest of a line leaves `match` alone. -/
def tokensKeep : Nat → List Text → Bool
  | _, [] => true
  | n, token :: rest =>
    match judge database queryId n token with
    | .passed => tokensKeep (n + 1) rest
    | .level _ _ => tokensKeep (n + 1) rest
    | .objected => false
    | .stopped => false

def lineStores (line : Text) : List (Nat × Int) :=
  tokenStores database queryId 1 (tokens ',' (cString line))

def keepsMatch (line : Text) : Bool := tokensKeep database queryId 1 (tokens ',' (cString line))

/-- The invariant of the token loop: the vector has the stores so far, and `match`
is what it was unless a token objected. -/
lemma scanTokens_eq (n : Nat) (parts : List Text) (s : Scan) : scanTokens database queryId n parts s =
      ⟨replay (tokenStores database queryId n parts) s.levels,
        s.matched && tokensKeep database queryId n parts⟩ := by
  induction parts generalizing n s with
  | nil => simp [scanTokens, tokenStores, tokensKeep, replay]
  | cons token parts ih =>
    cases verdict : judge database queryId n token <;> simp [scanTokens, tokenStores, tokensKeep, verdict, ih, replay]

lemma scanLine_eq (line : Text) (s : Scan) : scanLine database queryId line s =
    ⟨replay (lineStores database queryId line) s.levels,
      s.matched && keepsMatch database queryId line⟩ :=
  scanTokens_eq database queryId 1 _ s

lemma scanLines_unmatched (ls : List Text) (levels : Vector) :
    (scanLines database queryId ls ⟨levels, false⟩).levels =
      replay (ls.flatMap (lineStores database queryId)) levels := by
  induction ls generalizing levels with
  | nil => rfl
  | cons line ls ih =>
    simp only [scanLines, scanLine_eq, Bool.false_and, Bool.false_eq_true, if_false, ih,
      List.flatMap_cons, replay_append]

/-- The lines that are read: the first one alone if it leaves `match` alone, and
otherwise all. -/
def linesRead : List Text → List Text
  | [] => []
  | line :: rest => if keepsMatch database queryId line then [line] else line :: rest

/-- **The file acts as the log of the stores of the lines that are read.** -/
theorem scanLines_eq (ls : List Text) (levels : Vector) : (scanLines database queryId ls ⟨levels, true⟩).levels =
      replay ((linesRead database queryId ls).flatMap (lineStores database queryId)) levels := by
  cases ls with
  | nil => rfl
  | cons line rest =>
    cases kept : keepsMatch database queryId line with
    | true => simp [scanLines, scanLine_eq, linesRead, kept]
    | false =>
      simp [scanLines, scanLine_eq, linesRead, kept, scanLines_unmatched, replay_append]

end Stores

/-! ## What a text gives -/

/-- The number that a field is for `strtol`, when nothing but blanks stands around it. -/
def number (field : Text) : Option Int :=
  let (value, endptr) := strtol (trimEnd (trimStart field))
  if endptr = [] then some (toInt value) else none

def isLevel (value : Int) : Bool := 0 ≤ value && value ≤ 3

lemma outside_iff (value : Int) : (value < 0 ∨ 3 < value) ↔ isLevel value = false := by
  simp [isLevel, imp_iff_not_or]

section Given

variable (database : Text) (queryId : Int)

/-- The level that the fields behind the number of the query have for a position: no number in front of
it is out of range. A field that is no number keeps its position. -/
def levelIn (fields : List Text) (position : Nat) : Option Int :=
  if ∀ field ∈ fields.take position, ∀ value ∈ number field, isLevel value then
    (fields[position]?.bind number).filter isLevel
  else none

/-- The level that a text of comma-separated fields has for a position: it starts with the name of the
database, and no other number stands behind the name. -/
def given (text : Text) (position : Nat) : Option Int :=
  match tokens ',' (cString text) with
  | name :: query :: fields =>
    if sameIgnoringCase database (trimStart name) ∧ (∀ value ∈ number query, queryId = value) ∧ position < exprMaxNum then
      levelIn fields position
    else none
  | _ => none

/-- The fields of a text are the name, the number and at most `EXPR_MAX_NUM` levels; the last ones may be missing. -/
def flawless (text : Text) : Bool :=
  match tokens ',' (cString text) with
  | [] => true
  | [name] => sameIgnoringCase database (trimStart name)
  | name :: query :: fields =>
    sameIgnoringCase database (trimStart name) && number query = some queryId && fields.length ≤ exprMaxNum &&
      fields.all fun field => (number field).any isLevel

lemma judge_query (token : Text) : judge database queryId 2 token = match number token with
    | some value => if queryId = value then .passed else .stopped
    | none => .objected := by
  unfold judge number
  by_cases whole : (strtol (trimEnd (trimStart token))).2 = [] <;> simp [whole]

lemma judge_level (k : Nat) (token : Text) : judge database queryId (k + 3) token = match number token with
    | some value => if k < exprMaxNum ∧ isLevel value then .level k value else .stopped
    | none => .objected := by
  have room : k + 3 - 2 ≤ exprMaxNum ↔ k < exprMaxNum := by omega
  have late : k + 3 ≠ 1 ∧ k + 3 ≠ 2 := by omega
  unfold judge number
  simp only [outside_iff, room, late, if_false, Nat.add_sub_cancel]
  by_cases whole : (strtol (trimEnd (trimStart token))).2 = []
  · by_cases fits : k < exprMaxNum <;>
      cases level : isLevel (toInt (strtol (trimEnd (trimStart token))).1) <;> simp [whole, fits, level]
  · simp [whole]

lemma tokenStores_behind (fields : List Text) (k : Nat) :
    ∀ write ∈ tokenStores database queryId (k + 3) fields, k ≤ write.1 := by
  induction fields generalizing k with
  | nil => simp [tokenStores]
  | cons field fields ih =>
    have later : ∀ write ∈ tokenStores database queryId (k + 4) fields, k ≤ write.1 := fun write member =>
      Nat.le_of_succ_le (ih (k + 1) write member)
    cases verdict : judge database queryId (k + 3) field with
    | level position value =>
      have here : position = k := by
        rw [judge_level] at verdict
        split at verdict
        · split_ifs at verdict
          cases verdict
          rfl
        · cases verdict
      rw [tokenStores, verdict]
      exact List.forall_mem_cons.mpr ⟨here.ge, later⟩
    | stopped => simp [tokenStores, verdict]
    | _ =>
      rw [tokenStores, verdict]
      exact later

/-- The levels of the rest of a line, which starts at position `k`. -/
lemma latest_levels (fields : List Text) (k q : Nat) : latest (k + q) (tokenStores database queryId (k + 3) fields) =
      if k + q < exprMaxNum then levelIn fields q else none := by
  induction fields generalizing k q with
  | nil => simp [tokenStores, levelIn]
  | cons field fields ih =>
    have later : ∀ q, latest (k + (q + 1)) (tokenStores database queryId (k + 4) fields) =
        if k + (q + 1) < exprMaxNum then levelIn fields q else none := fun q => by
      rw [← Nat.succ_add_eq_add_succ]
      exact ih (k + 1) q
    have here : latest k (tokenStores database queryId (k + 4) fields) = none :=
      latest_eq_none.mpr fun write member => Nat.ne_of_gt (tokenStores_behind database queryId fields (k + 1) write member)
    rw [tokenStores, judge_level]
    cases q with
    | zero =>
      cases read : number field with
      | none => simp [levelIn, read, here]
      | some value =>
        by_cases room : k < exprMaxNum <;> cases level : isLevel value <;>
          simp [levelIn, Option.filter, read, here, room, level, latest]
    | succ q =>
      cases read : number field with
      | none => simp [levelIn, read, later]
      | some value =>
        by_cases room : k < exprMaxNum <;> cases level : isLevel value <;> simp [levelIn, read, later, room, level, latest]
        omega

lemma judge_name (token : Text) :
    judge database queryId 1 token = if sameIgnoringCase database (trimStart token) then .passed else .stopped := by
  simp [judge]

/-- **What a text stores is what it gives.** -/
theorem latest_lineStores (text : Text) (position : Nat) :
    latest position (lineStores database queryId text) = given database queryId text position := by
  unfold lineStores given
  rcases tokens ',' (cString text) with _ | ⟨name, _ | ⟨query, fields⟩⟩
  · rfl
  · cases same : sameIgnoringCase database (trimStart name) <;> simp [tokenStores, judge_name, same]
  · have levels := latest_levels database queryId fields 0 position
    rw [Nat.zero_add] at levels
    cases same : sameIgnoringCase database (trimStart name) with
    | false => simp [tokenStores, judge_name, same]
    | true =>
      cases read : number query with
      | none => simp [tokenStores, judge_name, judge_query, same, read, levels]
      | some value =>
        by_cases own : queryId = value
        · simp [tokenStores, judge_name, judge_query, same, read, ← own, levels]
        · simp [tokenStores, judge_name, judge_query, same, read, own]

lemma tokensKeep_levels (fields : List Text) {k : Nat} (room : k ≤ exprMaxNum) :
    tokensKeep database queryId (k + 3) fields =
      (decide (k + fields.length ≤ exprMaxNum) && fields.all fun field => (number field).any isLevel) := by
  induction fields generalizing k with
  | nil => simp [tokensKeep, room]
  | cons field fields ih =>
    rw [tokensKeep, judge_level, List.length_cons, List.all_cons]
    cases read : number field with
    | none => simp
    | some value =>
      by_cases fits : k < exprMaxNum
      · have rest := ih (k := k + 1) fits
        rw [Nat.add_assoc k 1 fields.length, Nat.add_comm 1 fields.length] at rest
        cases level : isLevel value <;> simp [fits, level, rest]
      · have full : ¬ k + (fields.length + 1) ≤ exprMaxNum := by omega
        simp [fits, full]

lemma keepsMatch_eq (text : Text) : keepsMatch database queryId text = flawless database queryId text := by
  unfold keepsMatch flawless
  rcases tokens ',' (cString text) with _ | ⟨name, _ | ⟨query, fields⟩⟩
  · rfl
  · cases same : sameIgnoringCase database (trimStart name) <;> simp [tokensKeep, judge_name, same]
  · have levels := tokensKeep_levels database queryId fields (Nat.zero_le exprMaxNum)
    rw [Nat.zero_add, Nat.zero_add] at levels
    cases same : sameIgnoringCase database (trimStart name) with
    | false => simp [tokensKeep, judge_name, same]
    | true =>
      cases read : number query with
      | none => simp [tokensKeep, judge_name, judge_query, same, read]
      | some value =>
        by_cases own : queryId = value
        · simp [tokensKeep, judge_name, judge_query, same, read, ← own, levels]
        · simp [tokensKeep, judge_name, judge_query, same, read, own, Ne.symm own]

end Given

/-! ## The format -/

/-- A field without the blanks around it. -/
def bare (t : Text) : Text := (t.dropWhile isSpace).rdropWhile isSpace

/-- The number a field is. -/
def numeral (t : Text) : Option Nat :=
  if t ≠ [] ∧ t.all Char.isDigit then some (digitsValue t) else none

/-- The number a field is, with a sign in front if it is negative. -/
def integer : Text → Option Int
  | '-' :: t => (numeral t).map fun n => -(n : Int)
  | t => (numeral t).map fun n => (n : Int)

/-- A line of the format: the name of a database, the number of a query, and 1 to
`EXPR_MAX_NUM` levels from 0 to 3. Empty fields at the end fill the line up. -/
def entry (line : Text) : Option (Text × Int × List Nat) :=
  match ((line.splitOn ',').map bare).rdropWhile (· = []) with
  | name :: query :: fields =>
    match integer query, fields.mapM numeral with
    | some query, some levels =>
      if name ≠ [] ∧ 1 ≤ levels.length ∧ levels.length ≤ exprMaxNum ∧ ∀ l ∈ levels, l ≤ 3 then
        some (name, query, levels)
      else none
    | _, _ => none
  | _ => none

section Format

variable (database : Text) (queryId : Int)

/-- The levels of a line of the format for the query. -/
def selected (line : Text) : Option (List Nat) :=
  match entry line with
  | some (name, query, levels) =>
    if sameIgnoringCase database name ∧ query = queryId then some levels else none
  | none => none

/-- The level the first line for the query has for a position. -/
def expected (file : Text) (position : Nat) : Option Int :=
  (((lines file).findSome? (selected database queryId)).bind (·[position]?)).map fun l => (l : Int)

/-- The vector when the lines `ls` of a file have been read. -/
def levelsAfter (ls : List Text) (levels : Vector) : Vector :=
  (scanLines database queryId (ls.flatMap (readLines lineRoom lineRoom)) ⟨levels, true⟩).levels

/-- The file is read as the format says: the levels are those of the first line for
the query, and no other line changes the vector. -/
structure FollowsFormat (file : Text) (levels : Vector) : Prop where
  result : testLevels database queryId file levels =
    fun position => (expected database queryId file position).getD (levels position)
  untouched : ∀ before line after, lines file = before ++ line :: after → selected database queryId line = none →
      levelsAfter database queryId (before ++ [line]) levels = levelsAfter database queryId before levels

/-- The stores of the lines `ls` of a file. -/
def storesOf (ls : List Text) : List (Nat × Int) :=
  (linesRead database queryId (ls.flatMap (readLines lineRoom lineRoom))).flatMap (lineStores database queryId)

lemma levelsAfter_eq (ls : List Text) (levels : Vector) :
    levelsAfter database queryId ls levels = replay (storesOf database queryId ls) levels :=
  scanLines_eq database queryId _ levels

lemma testLevels_eq (file : Text) (levels : Vector) : testLevels database queryId file levels =
    replay (storesOf database queryId (lines file)) levels := by
  rw [← levelsAfter_eq, testLevels, levelsAfter, readLines_eq_lines]

/-- The last level that the pieces of the lines `ls` give for a position; a first piece without a flaw
ends the search. -/
def lastGiven (ls : List Text) (position : Nat) : Option Int :=
  match ls.flatMap (readLines lineRoom lineRoom) with
  | [] => none
  | piece :: rest =>
    if flawless database queryId piece then given database queryId piece position
    else (piece :: rest).reverse.findSome? (given database queryId · position)

lemma latest_storesOf (ls : List Text) (position : Nat) :
    latest position (storesOf database queryId ls) = lastGiven database queryId ls position := by
  unfold storesOf lastGiven
  cases ls.flatMap (readLines lineRoom lineRoom) with
  | nil => rfl
  | cons piece rest =>
    rw [linesRead, latest_flatMap]
    simp only [keepsMatch_eq, latest_lineStores]
    split_ifs
    · simp
    · rfl

/-- **When a file is read as the format says, whatever the vector was before.** The last level that
the text gives for a position is that of the first line for the query, with none behind its levels; and
a line that is not for the query, or not of the format, gives no other levels than those given before. -/
theorem levels_from_file_iff (file : Text) : (∀ levels, FollowsFormat database queryId file levels) ↔
      (∀ position, lastGiven database queryId (lines file) position = expected database queryId file position) ∧
      ∀ before line after, lines file = before ++ line :: after → selected database queryId line = none →
          ∀ position, lastGiven database queryId (before ++ [line]) position =
            lastGiven database queryId before position := by
  simp only [← latest_storesOf]
  have results : (∀ levels, testLevels database queryId file levels =
      fun position => (expected database queryId file position).getD (levels position)) ↔
        ∀ position, latest position (storesOf database queryId (lines file)) =
          expected database queryId file position := by
    simp only [testLevels_eq]
    exact replay_eq_iff _ _
  have lineByLine : ∀ before line, (∀ levels, levelsAfter database queryId (before ++ [line]) levels =
      levelsAfter database queryId before levels) ↔
        ∀ position, latest position (storesOf database queryId (before ++ [line])) =
          latest position (storesOf database queryId before) := by
    intro before line
    rw [← replay_eq_iff]
    simp only [levelsAfter_eq, funext_iff, replay_apply]
  constructor
  · intro follows
    refine ⟨results.mp fun levels => (follows levels).result, ?_⟩
    intro before line after cut other
    exact (lineByLine before line).mp fun levels => (follows levels).untouched before line after cut other
  · rintro ⟨last, repeated⟩ levels
    refine ⟨results.mpr last levels, ?_⟩
    intro before line after cut other
    exact (lineByLine before line).mpr (repeated before line after cut other) levels

end Format

/-- A line with a level that does not exist has stored the level in front of it. -/
theorem malformed_line_stores : ¬ FollowsFormat "tpch".toList 3 "tpch,3,2,7\n".toList (fun _ => 0) := by
  intro follows
  have result := congrFun follows.result 0
  revert result
  decide

end Hex.Kernel.LevelsFile
