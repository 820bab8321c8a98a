/-
# Kernel.ExprFile — the expression table as a text file

`add_expression` (utils/init/globals.c) appends a line to a file for every
expression that gets a number: the number, and the names of its steps. At the
start of a server `parse_expression_file` (access/transam/xlog.c) reads such a file
and enters its expressions again, in the order of their lines.

`written` is what a sequence of calls appends. The loop over the lines reads into a buffer of 2048 bytes, and an
expression of `EXPR_SIZE` steps can have a longer line: its first part is then
entered as an expression of its own, and the rest is skipped.

`expression_file_iff` says when all lines come back. Between the two runs stands
`Alike`: two tables that differ at most in what `malloc` left behind the steps.
-/
import Hex.Kernel.ExprTable
import Hex.Kernel.OpNames

namespace Hex.Kernel.ExprFile

open ExprTable OpNames Theory.CText Theory.ProbeTable

variable {steps : List Int}

variable {line : Text} {calls : List (List Int)}

/-! ## The lines -/

/-- The word a line starts with: its bytes in UTF-8. -/
def marker : Text :=
  [0xE8, 0xA1, 0xA8, 0xE8, 0xBE, 0xBE, 0xE5, 0xBC, 0x8F, 0xE7, 0xBC, 0x96, 0xE5, 0x8F, 0xB7].map Char.ofNat

/-- The names of the steps, each behind a blank. -/
def stepsText (steps : List Int) : Text :=
  steps.flatMap fun step => ' ' :: getExprEvalOpNameById step

def exprLine (id : Nat) (steps : List Int) : Text :=
  marker ++ ' ' :: (decimal id ++ ':' :: stepsText steps)

/-- What one call of `add_expression` appends: a line when it gave a new number. -/
def appended (t t' : Table) (steps : List Int) : List Text :=
  if t'.exprNum = t.exprNum then [] else [exprLine t'.exprNum steps]

/-- What a sequence of calls appends. -/
def written : Table → List (List Int) → List Text
  | _, [] => []
  | t, steps :: rest =>
    match addExpression t steps with
    | none => []
    | some (t', _) => appended t t' steps ++ written t' rest

def trimToken (t : Text) : Text := trimEnd (trimStart t)

def readSteps (names : Text) : List Int :=
  ((tokens ' ' names).takeWhile fun token => token.head? ≠ some newline).map fun token =>
    getExprEvalOpValue (trimToken token)

/-- Enter the steps of a line; their array has room for `EXPR_SIZE` of them. -/
def enter (t : Table) (steps : List Int) : Option Table :=
  if steps.length ≤ exprSize then (addExpression t steps).map Prod.fst else none

/-- One round of the loop in `parse_expression_file`; `none` when it leaves its
arrays or follows a NULL. -/
def parseLine (t : Table) (line : Text) : Option Table :=
  let line := cString line
  if line.head? = some newline ∨ line.head? = none then some t
  else
    match strtok ' ' line with
    | none => some t
    | some (token, rest) =>
      if token.take 12 = marker.take 12 then
        match strtok ':' rest with
        | none => none
        | some (_, names) => enter t (readSteps names)
      else some t

/-- The steps `parse_expression_file` reads from a line, when it comes to read them. -/
def lineSteps (line : Text) : Option (List Int) :=
  let line := cString line
  if line.head? = some newline ∨ line.head? = none then none
  else
    match strtok ' ' line with
    | none => none
    | some (token, rest) =>
      if token.take 12 = marker.take 12 then
        (strtok ':' rest).map fun result => readSteps result.2
      else none

/-- The bytes that `line[2048]` has room for. -/
def lineRoom : Nat := 2047

/-- `parse_expression_file`, on the contents of the file; the table is allocated
anew, with what `malloc` returned in its step arrays. -/
def parseExpressionFile (t : Table) (garbage : Nat → Nat → Int) (file : Option Text) :
    Option Table :=
  let t := { t with exprTypes := initializeExprStepsList garbage }
  match file with
  | none => some t
  | some contents => (readLines lineRoom lineRoom contents).foldlM parseLine t

/-! ## Reading a line -/

lemma stepsText_cons (step : Int) (steps : List Int) :
    stepsText (step :: steps) = ' ' :: (getExprEvalOpNameById step ++ stepsText steps) := rfl

lemma stepsText_eq (steps : List Int) : stepsText steps = (steps.map getExprEvalOpNameById).flatMap (' ' :: ·) := by
  rw [stepsText, List.flatMap_map]

lemma not_special {c : Char} (plain : isNameChar c = true) :
    c ≠ ' ' ∧ c ≠ ':' ∧ c ≠ newline ∧ isSpace c = false ∧ c ≠ Char.ofNat 0 := by
  have range : (65 ≤ c.toNat ∧ c.toNat ≤ 90) ∨ c.toNat = 95 := by simpa [isNameChar] using plain
  refine ⟨?_, ?_, ?_, ?_, ?_⟩
  case refine_4 =>
    simp only [isSpace, Bool.or_eq_false_iff, beq_eq_false_iff_ne, Bool.and_eq_false_iff,
      decide_eq_false_iff_not]
    omega
  all_goals
    rintro rfl
    exact absurd range (by decide)

lemma read_word {step : Int} (code : IsCode step) {word : Text}
    (form : word = getExprEvalOpNameById step ∨ word = getExprEvalOpNameById step ++ [newline]) :
    word ≠ [] ∧ ' ' ∉ word ∧ word.head? ≠ some newline ∧ getExprEvalOpValue (trimToken word) = step := by
  obtain ⟨some, plain⟩ := name_plain code
  have noSpace : ∀ c ∈ getExprEvalOpNameById step, isSpace c = false := fun c member =>
    (not_special (plain c member)).2.2.2.1
  have noBlank : ' ' ∉ getExprEvalOpNameById step := fun member =>
    (not_special (plain _ member)).1 rfl
  obtain ⟨c, rest, spelled⟩ := List.exists_cons_of_ne_nil some
  have first := not_special (plain c (by simp [spelled]))
  have start : ∀ tail, trimStart (getExprEvalOpNameById step ++ tail) =
      getExprEvalOpNameById step ++ tail := fun tail => by
    simp [trimStart, spelled, first.2.2.2.1]
  obtain rfl | rfl := form
  · refine ⟨some, noBlank, by simp [spelled, first.2.2.1], ?_⟩
    have whole := start []
    rw [List.append_nil] at whole
    rw [trimToken, whole, trimEnd_eq_self noSpace, value_name code]
  · refine ⟨by simp, ?_, by simp [spelled, first.2.2.1], ?_⟩
    · simp [noBlank, newline]
    · rw [trimToken, start, trimEnd_newline noSpace some, value_name code]

lemma readSteps_words {words : List Text} (form : ∀ w ∈ words, ∃ step, IsCode step ∧
      (w = getExprEvalOpNameById step ∨ w = getExprEvalOpNameById step ++ [newline])) :
    readSteps (words.flatMap (' ' :: ·)) = words.map fun word => getExprEvalOpValue (trimToken word) := by
  have plain : ∀ w ∈ words, w ≠ [] ∧ ' ' ∉ w := fun w member => by
    obtain ⟨step, code, shape⟩ := form w member
    exact ⟨(read_word code shape).1, (read_word code shape).2.1⟩
  have read : words.takeWhile (fun token => token.head? ≠ some newline) = words := by
    rw [List.takeWhile_eq_self_iff]
    intro w member
    obtain ⟨step, code, shape⟩ := form w member
    exact decide_eq_true (read_word code shape).2.2.1
  rw [readSteps, tokens_words plain, read]

lemma readSteps_plain {t : Text} (plain : ∀ c ∈ t, isNameChar c = true ∨ c = ' ') :
    readSteps t = (tokens ' ' t).map getExprEvalOpValue := by
  have inToken : ∀ token ∈ tokens ' ' t, ∀ c ∈ token, isNameChar c = true := by
    intro token member c inside
    obtain ⟨inText, notBlank⟩ := mem_of_mem_tokens member inside
    exact (plain c inText).resolve_right notBlank
  have read : (tokens ' ' t).takeWhile (fun token => token.head? ≠ some newline) = tokens ' ' t := by
    rw [List.takeWhile_eq_self_iff]
    intro token member
    refine decide_eq_true fun first => ?_
    exact (not_special (inToken token member _ (List.mem_of_mem_head? first))).2.2.1 rfl
  rw [readSteps, read]
  refine List.map_congr_left fun token member => ?_
  have noSpace : ∀ c ∈ token, isSpace c = false := fun c inside =>
    (not_special (inToken token member c inside)).2.2.2.1
  rw [trimToken, trimStart_eq_self noSpace, trimEnd_eq_self noSpace]

lemma length_stepsText (steps : List Int) : (stepsText steps).length =
    ((steps.map getExprEvalOpNameById).map fun name => name.length + 1).sum := by
  simp [stepsText, List.length_flatMap, Function.comp_def]

section Codes

variable {steps : List Int} (codes : ∀ step ∈ steps, IsCode step)
include codes

lemma mem_stepsText {c : Char} (member : c ∈ stepsText steps) : isNameChar c = true ∨ c = ' ' := by
  obtain ⟨step, inSteps, here⟩ := List.mem_flatMap.mp member
  obtain rfl | inName := List.mem_cons.mp here
  · exact .inr rfl
  · exact .inl ((name_plain (codes step inSteps)).2 c inName)

lemma read_names : ((steps.map getExprEvalOpNameById).map fun word => getExprEvalOpValue (trimToken word)) =
      steps := by
  rw [List.map_map]
  exact (List.map_congr_left fun step member =>
    (read_word (codes step member) (.inl rfl)).2.2.2).trans (List.map_id steps)

lemma tokens_stepsText : tokens ' ' (stepsText steps) = steps.map getExprEvalOpNameById := by
  rw [stepsText_eq, tokens_words]
  intro w member
  obtain ⟨step, inSteps, rfl⟩ := List.mem_map.mp member
  exact ⟨(name_plain (codes step inSteps)).1, (read_word (codes step inSteps) (.inl rfl)).2.1⟩

lemma readSteps_stepsText : readSteps (stepsText steps) = steps := by
  rw [stepsText_eq, readSteps_words, read_names codes]
  intro w member
  obtain ⟨step, inSteps, rfl⟩ := List.mem_map.mp member
  exact ⟨step, codes step inSteps, .inl rfl⟩

lemma readSteps_newline : readSteps (stepsText steps ++ [newline]) = steps := by
  obtain rfl | ⟨init, last, rfl⟩ := List.eq_nil_or_concat' steps
  · -- the newline is a token of its own, and ends the loop
    rfl
  · have inInit : ∀ step ∈ init, IsCode step := fun step member => codes step (by simp [member])
    have lastCode : IsCode last := codes last (by simp)
    have text : stepsText (init ++ [last]) ++ [newline] =
        (init.map getExprEvalOpNameById ++ [getExprEvalOpNameById last ++ [newline]]).flatMap (' ' :: ·) := by
      simp [stepsText, List.flatMap_map]
    rw [text, readSteps_words, List.map_append, read_names inInit, List.map_singleton,
      (read_word lastCode (.inr rfl)).2.2.2]
    intro w member
    obtain inNames | atEnd := List.mem_append.mp member
    · obtain ⟨step, inSteps, rfl⟩ := List.mem_map.mp inNames
      exact ⟨step, inInit step inSteps, .inl rfl⟩
    · exact ⟨last, lastCode, .inr (List.mem_singleton.mp atEnd)⟩

lemma count_stepsText : (stepsText steps).count ' ' = steps.length := by
  induction steps with
  | nil => rfl
  | cons step steps ih =>
    have inName : ' ' ∉ getExprEvalOpNameById step := (read_word (codes step (by simp)) (.inl rfl)).2.1
    rw [stepsText_cons, List.count_cons_self, List.count_append,
      List.count_eq_zero_of_not_mem inName, ih fun s member => codes s (by simp [member])]
    simp

/-- **Names that are cut short are not read as the steps they were written for.**
The tokens would be the names, and those need the whole text. -/
theorem readSteps_cut {k : Nat} (short : k < (stepsText steps).length) :
    (readSteps ((stepsText steps).take k)).length ≤ steps.length ∧ readSteps ((stepsText steps).take k) ≠ steps := by
  have start : (stepsText steps).take k = [] ∨ ∃ t, (stepsText steps).take k = ' ' :: t := by
    cases steps with
    | nil => simp [stepsText]
    | cons step steps => cases k <;> simp [stepsText_cons]
  have taken : ((stepsText steps).take k).length = k := List.length_take_of_le short.le
  have blanks : ((stepsText steps).take k).count ' ' ≤ steps.length :=
    count_stepsText codes ▸ (List.take_sublist k _).count_le ' '
  have read : readSteps ((stepsText steps).take k) = (tokens ' ' ((stepsText steps).take k)).map getExprEvalOpValue :=
    readSteps_plain fun c member => mem_stepsText codes (List.mem_of_mem_take member)
  obtain none | ⟨t, cut⟩ := start
  · have zero : 0 = k := by simpa [none] using taken
    have nothing : readSteps [] = [] := rfl
    rw [none, nothing]
    refine ⟨Nat.zero_le _, fun empty => ?_⟩
    rw [← zero, ← empty] at short
    exact absurd short (by simp [stepsText])
  · rw [cut] at taken blanks read ⊢
    rw [tokens_delimiter] at read
    rw [List.count_cons_self] at blanks
    refine ⟨?_, fun same => ?_⟩
    · rw [read, List.length_map]
      exact (length_tokens_le ' ' t).trans blanks
    · have names : tokens ' ' t = steps.map getExprEvalOpNameById := by
        rw [← same, read, List.map_map]
        refine (List.map_id _).symm.trans (List.map_congr_left fun token member => ?_)
        have inSteps : getExprEvalOpValue token ∈ steps := by
          rw [← same, read]
          exact List.mem_map_of_mem member
        exact eq_name (codes _ inSteps) rfl
      have room := sum_tokens_le ' ' t
      rw [names, ← length_stepsText] at room
      rw [List.length_cons] at taken
      omega

end Codes

/-! ## Reading a line into the table -/

lemma enter_of_le {t : Table} (few : steps.length ≤ exprSize) :
    enter t steps = (addExpression t steps).map Prod.fst := if_pos few

lemma marker_plain : ∀ c ∈ marker, c ≠ ' ' ∧ c ≠ newline ∧ c ≠ Char.ofNat 0 :=
  List.all_iff_forall_prop.mp (by decide)

lemma decimal_plain (id : Nat) :
    ∀ c ∈ decimal id, c ≠ ':' ∧ c ≠ newline ∧ c ≠ Char.ofNat 0 ∧ c ≠ Char.ofNat 0xE8 := by
  intro c member
  have digit := isDigit_iff.mp (isDigit_of_mem_decimal member)
  refine ⟨?_, ?_, ?_, ?_⟩
  all_goals
    rintro rfl
    exact absurd digit (by decide)

lemma parseLine_of_steps (t : Table)
    (read : lineSteps line = some steps) : parseLine t line = enter t steps := by
  unfold lineSteps at read
  unfold parseLine
  dsimp only at read ⊢
  split at read
  · cases read
  · rename_i proceeds
    rw [if_neg proceeds]
    split at read
    · cases read
    · split at read
      · rename_i marked
        obtain ⟨result, colon, rfl⟩ := Option.map_eq_some_iff.mp read
        simp only [if_pos marked, colon]
      · cases read

lemma lineSteps_marked {rest token names : Text} (plain : Char.ofNat 0 ∉ rest)
    (colon : strtok ':' rest = some (token, names)) : lineSteps (marker ++ ' ' :: rest) = some (readSteps names) := by
  have whole : cString (marker ++ ' ' :: rest) = marker ++ ' ' :: rest := by
    rw [cString, List.takeWhile_eq_self_iff]
    intro c member
    apply decide_eq_true
    simp only [List.mem_append, List.mem_cons] at member
    obtain inMarker | rfl | inRest := member
    · exact (marker_plain c inMarker).2.2
    · decide
    · exact fun zero => plain (zero ▸ inRest)
  have first : (marker ++ ' ' :: rest).head? = some (Char.ofNat 0xE8) := rfl
  have word : strtok ' ' (marker ++ ' ' :: rest) = some (marker, rest) :=
    strtok_word rest (fun blank => (marker_plain _ blank).1 rfl) (by decide)
  have proceeds : ¬ (some (Char.ofNat 0xE8) = some newline ∨ some (Char.ofNat 0xE8) = none) := by
    decide
  simp only [lineSteps, whole, first, proceeds, if_false, word, if_true, colon, Option.map_some]

/-- A line without the first byte of the marker is skipped. -/
lemma parseLine_skip (t : Table) (unmarked : Char.ofNat 0xE8 ∉ line) : parseLine t line = some t := by
  simp only [parseLine]
  split
  · rfl
  · split
    · rfl
    · rename_i token rest found
      split
      · rename_i marked
        have inTake : Char.ofNat 0xE8 ∈ token.take 12 := by
          rw [marked]
          decide
        have inLine : Char.ofNat 0xE8 ∈ cString line :=
          mem_of_strtok found (List.mem_of_mem_take inTake)
        exact absurd (List.takeWhile_subset _ inLine) unmarked
      · rfl

lemma foldlM_skip (t : Table) {pieces : List Text} (unmarked : ∀ piece ∈ pieces, Char.ofNat 0xE8 ∉ piece) :
    pieces.foldlM parseLine t = some t := by
  induction pieces with
  | nil => rfl
  | cons piece pieces ih =>
    rw [List.foldlM_cons, parseLine_skip t (unmarked piece (by simp)), Option.bind_eq_bind,
      Option.bind_some, ih fun p member => unmarked p (by simp [member])]

/-- The loop of `parse_expression_file` over a text. -/
def parseText (t : Table) (text : Text) : Option Table :=
  (readLines lineRoom lineRoom text).foldlM parseLine t

lemma parseText_fileOf (t : Table) {rest : List Text}
    (plain : ∀ l ∈ line :: rest, newline ∉ l) : parseText t (fileOf (line :: rest)) =
      (parseText t (line ++ [newline])).bind fun t => parseText t (fileOf rest) := by
  simp only [parseText, readLines_eq_lines _ (fileOf _), lines_fileOf plain,
    lines_fileOf (List.forall_mem_cons.mp plain).2, List.map_cons, List.flatMap_cons, List.foldlM_append]
  rfl

section Line

variable {steps : List Int} (codes : ∀ step ∈ steps, IsCode step) (t : Table) (id : Nat)
include codes

lemma stepsText_plain {c : Char} (member : c ∈ stepsText steps) :
    c ≠ ':' ∧ c ≠ newline ∧ c ≠ Char.ofNat 0 ∧ c ≠ Char.ofNat 0xE8 := by
  obtain plain | rfl := mem_stepsText codes member
  · refine ⟨(not_special plain).2.1, (not_special plain).2.2.1, (not_special plain).2.2.2.2, ?_⟩
    rintro rfl
    exact absurd plain (by decide)
  · decide

lemma newline_not_mem_exprLine : newline ∉ exprLine id steps := by
  intro member
  simp only [exprLine, List.mem_append, List.mem_cons] at member
  obtain inMarker | blank | inId | colon | inNames := member
  · exact (marker_plain _ inMarker).2.1 rfl
  · exact absurd blank (by decide)
  · exact (decimal_plain id _ inId).2.1 rfl
  · exact absurd colon (by decide)
  · exact (stepsText_plain codes inNames).2.1 rfl

/-- Behind the marker the first byte of it does not come again. -/
lemma tail_unmarked : ∀ c ∈ ' ' :: (decimal id ++ ':' :: stepsText steps),
    c ≠ Char.ofNat 0 ∧ c ≠ Char.ofNat 0xE8 := by
  intro c member
  simp only [List.mem_append, List.mem_cons] at member
  obtain rfl | inId | rfl | inNames := member
  · decide
  · exact (decimal_plain id _ inId).2.2
  · decide
  · exact (stepsText_plain codes inNames).2.2

omit codes in
lemma lineSteps_names {names : Text} (plain : Char.ofNat 0 ∉ names) :
    lineSteps (marker ++ ' ' :: (decimal id ++ ':' :: names)) = some (readSteps names) := by
  have number : ':' ∉ decimal id := fun colon => (decimal_plain id _ colon).1 rfl
  apply lineSteps_marked _ (strtok_word names number (decimal_ne_nil id))
  simp only [List.mem_append, List.mem_cons, not_or]
  exact ⟨fun zero => (decimal_plain id _ zero).2.2.1 rfl, by decide, plain⟩

omit codes in
lemma parseLine_names {names : Text} (plain : Char.ofNat 0 ∉ names) :
    parseLine t (marker ++ ' ' :: (decimal id ++ ':' :: names)) = enter t (readSteps names) :=
  parseLine_of_steps t (lineSteps_names id plain)

/-- A line of the file is read as the steps it was written for. -/
lemma lineSteps_exprLine : lineSteps (exprLine id steps ++ [newline]) = some steps := by
  have line : exprLine id steps ++ [newline] =
      marker ++ ' ' :: (decimal id ++ ':' :: (stepsText steps ++ [newline])) := by
    simp [exprLine]
  have noZero : Char.ofNat 0 ∉ stepsText steps ++ [newline] := by
    simp only [List.mem_append, not_or]
    exact ⟨fun zero => (stepsText_plain codes zero).2.2.1 rfl, by decide⟩
  rw [line, lineSteps_names id noZero, readSteps_newline codes]

/-- Of a line that fills the buffer only the first part can be entered. -/
lemma parseText_long (long : lineRoom ≤ (exprLine id steps).length) : parseText t (exprLine id steps ++ [newline]) =
      parseLine t ((exprLine id steps).take lineRoom) := by
  have skipped : ∀ piece ∈ readLines lineRoom lineRoom
      ((exprLine id steps).drop lineRoom ++ [newline]), Char.ofNat 0xE8 ∉ piece := by
    intro piece member inside
    have whole := mem_of_mem_readLines member inside
    rw [List.mem_append] at whole
    obtain inLine | inNewline := whole
    · have behind : Char.ofNat 0xE8 ∈ ' ' :: (decimal id ++ ':' :: stepsText steps) := by
        apply List.mem_of_mem_drop (i := 2032)
        rwa [exprLine, List.drop_append, List.drop_eq_nil_of_le (by decide), List.nil_append] at inLine
      exact (tail_unmarked codes id _ behind).2 rfl
    · exact absurd inNewline (by decide)
  rw [parseText, readLines_long lineRoom _ (newline_not_mem_exprLine codes id) (by decide) long,
    List.foldlM_cons]
  cases first : parseLine t ((exprLine id steps).take lineRoom) with
  | none => rfl
  | some u => exact foldlM_skip u skipped

/-- **A line that fits is entered as the expression it was written for.** -/
theorem parseText_fits (few : steps.length ≤ exprSize) (fits : (exprLine id steps).length ≤ lineRoom) :
    parseText t (exprLine id steps ++ [newline]) = (addExpression t steps).map Prod.fst := by
  obtain shorter | exactly := Nat.lt_or_eq_of_le fits
  · rw [parseText, readLines_short lineRoom [] (newline_not_mem_exprLine codes id) shorter,
      List.foldlM_cons, parseLine_of_steps t (lineSteps_exprLine codes id), enter_of_le few]
    cases addExpression t steps <;> rfl
  · have noZero : Char.ofNat 0 ∉ stepsText steps := fun zero =>
      (stepsText_plain codes zero).2.2.1 rfl
    rw [parseText_long codes t id exactly.ge, ← exactly, List.take_length, exprLine,
      parseLine_names t id noZero, readSteps_stepsText codes, enter_of_le few]

/-- **A line that does not fit is entered as another expression.** -/
theorem parseText_cut (some : steps ≠ []) (few : steps.length ≤ exprSize)
    (long : lineRoom < (exprLine id steps).length) : ∃ other, other ≠ steps ∧
      parseText t (exprLine id steps ++ [newline]) = (addExpression t other).map Prod.fst := by
  have start : (exprLine id steps).take lineRoom =
      marker ++ ' ' :: (decimal id ++ ':' :: stepsText steps).take 2031 := by
    simp [exprLine, lineRoom, List.take_append, marker]
  rw [parseText_long codes t id long.le, start]
  by_cases whole : (decimal id).length < 2031
  · have cut : (decimal id ++ ':' :: stepsText steps).take 2031 =
        decimal id ++ ':' :: (stepsText steps).take (2030 - (decimal id).length) := by
      obtain ⟨k, room⟩ : ∃ k, 2031 - (decimal id).length = k + 1 :=
        ⟨2030 - (decimal id).length, by omega⟩
      rw [List.take_append, List.take_of_length_le whole.le, room, List.take_succ_cons]
      congr 3
      omega
    have short : 2030 - (decimal id).length < (stepsText steps).length := by
      have length : (exprLine id steps).length = 15 + ((decimal id).length + ((stepsText steps).length + 1) + 1) := by
        have marked : marker.length = 15 := rfl
        simp only [exprLine, List.length_append, List.length_cons, marked]
      rw [length] at long
      simp only [lineRoom] at long
      omega
    obtain ⟨fewer, other⟩ := readSteps_cut codes short
    refine ⟨_, other, ?_⟩
    rw [cut, parseLine_names t id fun zero =>
      (stepsText_plain codes (List.mem_of_mem_take zero)).2.2.1 rfl, enter_of_le (fewer.trans few)]
  · -- the number alone fills the buffer: no step is read
    have digits : (decimal id ++ ':' :: stepsText steps).take 2031 = (decimal id).take 2031 := by
      rw [List.take_append_of_le_length (by omega)]
    have filled : (decimal id).take 2031 ≠ [] := by
      intro empty
      rw [List.take_eq_nil_iff] at empty
      exact empty.elim (by decide) (decimal_ne_nil id)
    have word := strtok_last (d := ':') (fun colon => (decimal_plain id _ (List.mem_of_mem_take colon)).1 rfl) filled
    refine ⟨[], some.symm, ?_⟩
    rw [digits, parseLine_of_steps t (lineSteps_marked
      (fun zero => (decimal_plain id _ (List.mem_of_mem_take zero)).2.2.1 rfl) word)]
    rfl

end Line

/-! ## Two tables with the same expressions -/

/-- What the loops of the table rely on, and that no number is ahead of the count. -/
structure Sound (t : Table) : Prop where
  unused : t.exprNum = 0 → ∀ i, t.keys i = none
  numbered : ∀ i, (t.exprTypes i).expressionId ≤ t.exprNum

lemma sound_initial (g : Nat → Nat → Int) : Sound (initial g) :=
  ⟨fun _ _ => rfl, fun _ => Nat.le_refl 0⟩

/-- What a call that returns did to the table. -/
lemma addExpression_inv {t t' : Table} {r : Option Nat} (sound : Sound t)
    (ran : addExpression t steps = some (t', r)) :
    0 ≤ homeIndex (calculateHash steps) ∧ (t' = t ∨ t' = { t with updateExprList := true } ∨
        ∃ i < exprListSize, t' = store t i steps) := by
  refine (addExpression_returned sound.unused ran).imp_right fun returned => ?_
  cases returned with
  | hit => exact .inl rfl
  | free _ inside => exact .inr (.inr ⟨_, inside, rfl⟩)
  | full => exact .inr (.inl rfl)

lemma Sound.addExpression {t t' : Table} {r : Option Nat} (sound : Sound t)
    (ran : addExpression t steps = some (t', r)) : Sound t' := by
  obtain ⟨_, rfl | rfl | ⟨i, _, rfl⟩⟩ := addExpression_inv sound ran
  · exact sound
  · exact ⟨sound.unused, sound.numbered⟩
  · refine ⟨fun zero => absurd zero (Nat.succ_ne_zero _), fun j => ?_⟩
    by_cases same : j = i
    · simp [store, same]
    · simp only [store, Function.update_of_ne same]
      exact (sound.numbered j).trans (Nat.le_succ _)

/-- All of an entry but what `malloc` left behind its steps. -/
def view (e : ExprSteps) : Nat × Int × Nat × List Int :=
  (e.expressionId, e.hash, e.stepLens, e.stepList)

/-- Two tables that differ at most in what `malloc` left behind the steps. -/
structure Alike (t u : Table) : Prop where
  count : t.exprNum = u.exprNum
  entry : ∀ i, view (t.exprTypes i) = view (u.exprTypes i)

lemma alike_initial (g g' : Nat → Nat → Int) : Alike (initial g) (initial g') :=
  ⟨rfl, fun _ => rfl⟩

section Alike

variable {t u : Table} (alike : Alike t u)
include alike

lemma Alike.keys : t.keys = u.keys := by
  funext i
  have same := alike.entry i
  simp only [view, Prod.mk.injEq] at same
  simp only [Table.keys, same.2.1, same.2.2.1]

lemma Alike.sound (sound : Sound t) : Sound u := by
  refine ⟨?_, fun i => ?_⟩
  · rw [← alike.count, ← alike.keys]
    exact sound.unused
  · have same : (t.exprTypes i).expressionId = (u.exprTypes i).expressionId :=
      congrArg Prod.fst (alike.entry i)
    rw [← same, ← alike.count]
    exact sound.numbered i

lemma Alike.store (i : Nat) (steps : List Int) : Alike (ExprTable.store t i steps) (ExprTable.store u i steps) := by
  refine ⟨congrArg (· + 1) alike.count, fun j => ?_⟩
  by_cases same : j = i
  · rw [same, view, view, stepList_store, stepList_store]
    simp [ExprTable.store, alike.count]
  · simp only [ExprTable.store, Function.update_of_ne same]
    exact alike.entry j

lemma Alike.addExpression {t' : Table} {r : Option Nat} (sound : Sound t)
    (ran : addExpression t steps = some (t', r)) :
    ∃ u', ExprTable.addExpression u steps = some (u', r) ∧ Alike t' u' := by
  obtain ⟨inside, returned⟩ := addExpression_returned sound.unused ran
  rw [addExpression_eq inside (alike.sound sound).unused, ← alike.keys]
  cases returned with
  | hit found =>
    rw [found]
    exact ⟨u, rfl, alike⟩
  | free found _ _ short =>
    rw [found]
    exact ⟨_, if_pos short, alike.store _ steps⟩
  | full found =>
    rw [found]
    exact ⟨_, rfl, alike.count, alike.entry⟩

end Alike

/-! ## The round trip -/

/-- The expressions of a table: number, length and steps. -/
def expressions (t : Table) : Set (Nat × Nat × List Int) :=
  { e | ∃ i < exprListSize, (t.exprTypes i).expressionId ≠ 0 ∧
    e = ((t.exprTypes i).expressionId, (t.exprTypes i).stepLens, (t.exprTypes i).stepList) }

/-- The reader `u` ends with the expressions the writer `t` has after its calls. -/
def RoundTrips (t u : Table) (calls : List (List Int)) : Prop :=
  ∀ t' entries, addAll t calls = some (t', entries) →
    ∃ u', parseText u (fileOf (written t calls)) = some u' ∧ u'.exprNum = t'.exprNum ∧ expressions u' = expressions t'

lemma Alike.expressions_eq {t u : Table} (alike : Alike t u) : expressions u = expressions t := by
  have same : ∀ i, (t.exprTypes i).expressionId = (u.exprTypes i).expressionId ∧
      (t.exprTypes i).stepLens = (u.exprTypes i).stepLens ∧
      (t.exprTypes i).stepList = (u.exprTypes i).stepList := fun i => by
    have entry := alike.entry i
    simp only [view, Prod.mk.injEq] at entry
    exact ⟨entry.1, entry.2.2⟩
  ext e
  simp only [expressions, (same _).1, (same _).2.1, (same _).2.2]

/-- The sequences an expression can have. -/
def IsSequence (steps : List Int) : Prop :=
  1 ≤ steps.length ∧ steps.length ≤ exprSize ∧ ∀ step ∈ steps, IsCode step

instance (steps : List Int) : Decidable (IsSequence steps) := by
  unfold IsSequence
  infer_instance

lemma IsSequence.ne_nil (sequence : IsSequence steps) : steps ≠ [] :=
  List.length_pos_iff.mp sequence.1

lemma newline_not_mem_written :
    ∀ {t : Table}, (∀ steps ∈ calls, IsSequence steps) → ∀ line ∈ written t calls, newline ∉ line := by
  induction calls with
  | nil =>
    intro t _ line member
    cases member
  | cons steps calls ih =>
    intro t valid line member
    simp only [written] at member
    split at member
    · cases member
    · rename_i t' _ _
      obtain here | later := List.mem_append.mp member
      · unfold appended at here
        split at here
        · cases here
        · rw [List.mem_singleton.mp here]
          exact newline_not_mem_exprLine (valid steps (by simp)).2.2 _
      · exact ih (fun s inCalls => valid s (by simp [inCalls])) line later

lemma written_cons {t t' : Table} {r : Option Nat} (calls : List (List Int))
    (ran : addExpression t steps = some (t', r)) :
    written t (steps :: calls) = appended t t' steps ++ written t' calls := by
  simp only [written, ran]

lemma mem_written_of_take : ∀ {t : Table} {n : Nat}, line ∈ written t (calls.take n) → line ∈ written t calls := by
  induction calls with
  | nil => intro t n member; simpa using member
  | cons steps calls ih =>
    intro t n member
    cases n with
    | zero => cases member
    | succ n =>
      simp only [List.take_succ_cons, written] at member ⊢
      split
      · simp_all
      · rename_i t' r ran
        simp only [ran, List.mem_append] at member
        exact List.mem_append.mpr (member.imp id ih)

section Step

variable {t u t' : Table} {steps : List Int} {r : Option Nat} (alike : Alike t u)
  (sound : Sound t) (sequence : IsSequence steps) (ran : addExpression t steps = some (t', r))
include alike sound sequence ran

/-- A call whose line fits is repeated by the reader. -/
lemma parseText_appended (fits : ∀ line ∈ appended t t' steps, line.length ≤ lineRoom) :
    ∃ u', Alike t' u' ∧ ∀ rest : List Text, (∀ line ∈ rest, newline ∉ line) →
      parseText u (fileOf (appended t t' steps ++ rest)) = parseText u' (fileOf rest) := by
  obtain ⟨_, rfl | rfl | ⟨i, _, stored⟩⟩ := addExpression_inv sound ran
  · refine ⟨u, alike, fun rest _ => ?_⟩
    rw [appended, if_pos rfl, List.nil_append]
  · refine ⟨u, ⟨alike.count, alike.entry⟩, fun rest _ => ?_⟩
    rw [appended, if_pos rfl, List.nil_append]
  · obtain ⟨u', same, alike'⟩ := alike.addExpression sound ran
    refine ⟨u', alike', fun rest plain => ?_⟩
    have new : t'.exprNum ≠ t.exprNum := by
      rw [stored]
      exact Nat.succ_ne_self _
    rw [appended, if_neg new] at fits ⊢
    have whole : ∀ line ∈ exprLine t'.exprNum steps :: rest, newline ∉ line :=
      List.forall_mem_cons.mpr ⟨newline_not_mem_exprLine sequence.2.2 _, plain⟩
    rw [List.singleton_append, parseText_fileOf u whole,
      parseText_fits sequence.2.2 u _ sequence.2.1 (fits _ (by simp)), same]
    rfl

/-- After a call whose line does not fit the reader has another expression under
the new number, or none. -/
lemma not_roundTrips_of_long {line : Text} (member : line ∈ appended t t' steps)
    (long : lineRoom < line.length) : ¬ RoundTrips t u [steps] := by
  intro roundTrips
  have called : addAll t [steps] = some (t', [r.map t'.exprTypes]) :=
    addAll_cons.mpr ⟨t', r, [], ran, rfl, rfl⟩
  obtain ⟨u', parsed, _, same⟩ := roundTrips t' _ called
  obtain ⟨_, rfl | rfl | ⟨i, inside, rfl⟩⟩ := addExpression_inv sound ran
  · simp [appended] at member
  · simp [appended] at member
  · have lines : appended t (store t i steps) steps = [exprLine (t.exprNum + 1) steps] :=
      if_neg (Nat.succ_ne_self _)
    rw [lines, List.mem_singleton] at member
    subst member
    obtain ⟨other, differs, entered⟩ :=
      parseText_cut sequence.2.2 u (t.exprNum + 1) sequence.ne_nil sequence.2.1 long
    have file : fileOf (written t [steps]) = exprLine (t.exprNum + 1) steps ++ [newline] := by
      rw [written_cons [] ran, lines]
      simp [written, fileOf]
    rw [file, entered, Option.map_eq_some_iff] at parsed
    obtain ⟨⟨v, s⟩, added, rfl⟩ := parsed
    -- the writer has its steps under the new number
    have inWriter : (t.exprNum + 1, steps.length, steps) ∈ expressions (store t i steps) := by
      refine ⟨i, inside, ?_, ?_⟩
      · simp [store]
      · rw [stepList_store]
        simp [store]
    rw [← same] at inWriter
    obtain ⟨j, _, _, entry⟩ := inWriter
    simp only [Prod.mk.injEq] at entry
    have older := (alike.sound sound).numbered j
    rw [← alike.count] at older
    obtain ⟨_, rfl | rfl | ⟨k, _, rfl⟩⟩ := addExpression_inv (alike.sound sound) added
    · omega
    · exact absurd entry.1 (by simpa using (Nat.lt_succ_of_le older).ne')
    · by_cases new : j = k
      · rw [new, stepList_store] at entry
        exact differs entry.2.2.symm
      · simp only [store, Function.update_of_ne new] at entry
        omega

end Step

/-- **Lines that all fit bring the table back.** -/
theorem parseText_written : ∀ {t u t' : Table} {entries : List (Option ExprSteps)}, Alike t u → Sound t →
    (∀ steps ∈ calls, IsSequence steps) → addAll t calls = some (t', entries) →
    (∀ line ∈ written t calls, line.length ≤ lineRoom) →
    ∃ u', parseText u (fileOf (written t calls)) = some u' ∧ Alike t' u' := by
  induction calls with
  | nil =>
    intro t u t' entries alike _ _ ran _
    cases ran
    exact ⟨u, rfl, alike⟩
  | cons steps calls ih =>
    intro t u t' entries alike sound valid ran fits
    obtain ⟨t1, r, entries', first, later, _⟩ := addAll_cons.mp ran
    obtain ⟨sequence, valid⟩ := List.forall_mem_cons.mp valid
    rw [written_cons calls first] at fits ⊢
    obtain ⟨here, fits⟩ := List.forall_mem_append.mp fits
    obtain ⟨u1, alike1, parsed⟩ := parseText_appended alike sound sequence first here
    obtain ⟨u', parsed', alike'⟩ := ih alike1 (sound.addExpression first) valid later fits
    exact ⟨u', by rw [parsed _ (newline_not_mem_written valid), parsed'], alike'⟩

/-- A run that comes back at every point has lines that all fit. -/
lemma fits_of_roundTrips : ∀ {t u t' : Table} {entries : List (Option ExprSteps)}, Alike t u → Sound t →
    (∀ steps ∈ calls, IsSequence steps) → addAll t calls = some (t', entries) →
    (∀ n, RoundTrips t u (calls.take n)) →
    ∀ line ∈ written t calls, line.length ≤ lineRoom := by
  induction calls with
  | nil =>
    intro t u t' entries _ _ _ _ _ line member
    cases member
  | cons steps calls ih =>
    intro t u t' entries alike sound valid ran roundTrips
    obtain ⟨t1, r, entries', first, later, _⟩ := addAll_cons.mp ran
    obtain ⟨sequence, valid⟩ := List.forall_mem_cons.mp valid
    have fits : ∀ line ∈ appended t t1 steps, line.length ≤ lineRoom := by
      intro line member
      by_contra long
      have once : RoundTrips t u [steps] := roundTrips 1
      exact not_roundTrips_of_long alike sound sequence first member (Nat.lt_of_not_le long) once
    obtain ⟨u1, alike1, parsed⟩ := parseText_appended alike sound sequence first fits
    have rest : ∀ n, RoundTrips t1 u1 (calls.take n) := by
      intro n last entries ran'
      have whole := roundTrips (n + 1) last (r.map t1.exprTypes :: entries)
        (addAll_cons.mpr ⟨t1, r, entries, first, ran', rfl⟩)
      rwa [List.take_succ_cons, written_cons _ first, parsed _ (newline_not_mem_written
        fun s member => valid s (List.mem_of_mem_take member))] at whole
    rw [written_cons calls first]
    exact List.forall_mem_append.mpr ⟨fits, ih alike1 (sound.addExpression first) valid later rest⟩

/-- A server that is started on the file of a table has the same expressions. -/
def Reloads (g g' : Nat → Nat → Int) (calls : List (List Int)) : Prop :=
  ∀ t entries, addAll (initial g) calls = some (t, entries) →
    ∃ u, parseExpressionFile (initial g') g' (some (fileOf (written (initial g) calls))) = some u ∧
      u.exprNum = t.exprNum ∧ expressions u = expressions t

/-- **The file of a table brings it back, at every point of a run, exactly when no
line is longer than the buffer of the reader.** -/
theorem expression_file_iff (g g' : Nat → Nat → Int) {calls : List (List Int)}
    (valid : ∀ steps ∈ calls, IsSequence steps) {t : Table} {entries : List (Option ExprSteps)}
    (ran : addAll (initial g) calls = some (t, entries)) :
    (∀ n, Reloads g g' (calls.take n)) ↔ ∀ line ∈ written (initial g) calls, line.length ≤ lineRoom := by
  constructor
  · exact fits_of_roundTrips (alike_initial g g') (sound_initial g) valid ran
  · intro fits n t' entries' ran'
    obtain ⟨u, parsed, alike⟩ := parseText_written (alike_initial g g') (sound_initial g)
      (fun steps member => valid steps (List.mem_of_mem_take member)) ran'
      fun line member => fits line (mem_written_of_take member)
    exact ⟨u, parsed, alike.count.symm, alike.expressions_eq⟩

/-- An aggregate over 63 columns: its transition steps have the longest names. -/
def wideAggregate : List Int := List.replicate 63 82 ++ [0]

lemma length_wideAggregate : (exprLine 1 wideAggregate).length = 2485 := by
  have named : (getExprEvalOpNameById 82).length = 38 := by decide
  have done : (getExprEvalOpNameById 0).length = 9 := by decide
  have number : (decimal 1).length = 1 := by decide
  have marked : marker.length = 15 := rfl
  simp only [exprLine, List.length_append, List.length_cons, length_stepsText, wideAggregate,
    List.map_append, List.map_replicate, List.sum_append, List.sum_replicate, List.map_cons,
    List.map_nil, List.sum_cons, List.sum_nil, named, done, number, marked]
  decide

/-- The table with one wide aggregate does not come back. -/
theorem wide_aggregate_lost : IsSequence wideAggregate ∧ (addAll (initial fun _ _ => 0) [wideAggregate]).isSome ∧
    ¬ Reloads (fun _ _ => 0) (fun _ _ => 0) [wideAggregate] := by
  have sequence : IsSequence wideAggregate := by decide
  have numbered : (addExpression (initial fun _ _ => 0) wideAggregate).map (·.1.exprNum) = some 1 := by
    decide +kernel
  obtain ⟨⟨t, r⟩, ran, one⟩ := Option.map_eq_some_iff.mp numbered
  have line : exprLine 1 wideAggregate ∈ appended (initial fun _ _ => 0) t wideAggregate := by
    simp only at one
    simp [appended, one, initial]
  refine ⟨sequence, by simp [addAll, ran], ?_⟩
  apply not_roundTrips_of_long (alike_initial _ _) (sound_initial _) sequence ran line
  rw [length_wideAggregate]
  decide

/-- A table of two expressions whose lines fit. -/
theorem expression_file_two : ∃ t entries,
    addAll (initial fun _ _ => 0) [[3, 6, 0], [16, 14, 0]] = some (t, entries) ∧
      ((∀ n, Reloads (fun _ _ => 0) (fun _ _ => 0) ([[3, 6, 0], [16, 14, 0]].take n)) ↔
        ∀ line ∈ written (initial fun _ _ => 0) [[3, 6, 0], [16, 14, 0]],
          line.length ≤ lineRoom) := by
  have runs : (addAll (initial fun _ _ => 0) [[3, 6, 0], [16, 14, 0]]).isSome := by decide
  obtain ⟨⟨t, entries⟩, ran⟩ := Option.isSome_iff_exists.mp runs
  exact ⟨t, entries, ran, expression_file_iff _ _ (by decide) ran⟩

end Hex.Kernel.ExprFile
