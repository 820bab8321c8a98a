/-
# Analysis.ExprDictionary — the steps behind the numbers of the expressions

The level-analysis script (`analyzeData_Opt+Expr(Level).py`) starts by reading
the file to which all backends append their expressions, and builds a dictionary
for each database: from the number of an expression to the names of its steps.
The file does not say which database, or which backend, a line is from. The
script takes every line with number 1 for the first line of the next database.

`sections` cuts the lines of the file that way, and `readEeops_spec` says that
the `j`-th dictionary holds the last line with each number of the `j`-th section.
`eeops_dictionary_iff` is what this comes to for the backends of a server, and
`sectionsRight_of_single` says that one backend for each database is enough.
-/
import Hex.Kernel.Backends
import Hex.Theory.PyText
import Hex.Theory.WriteLog

namespace Hex.Analysis.ExprDictionary

open Kernel.ExprTable Kernel.ExprFile Kernel.OpNames Kernel.Backends
open Theory.CText Theory.FallibleLoop Theory.PyText Theory.WriteLog

variable {line : Nat × List Int} {log sec : List (Nat × List Int)}

def databaseNames : List String :=
  ["tpch_0_1_0", "tpch_0_2_0", "tpch_0_3_0", "tpch_0_4_0", "tpch_0_5_0", "tpch_0_6_0",
   "tpch_0_7_0", "tpch_0_8_0", "tpch_0_9_0", "tpch_1_0_0", "tpch_2_0_0", "tpch_3_0_0",
   "tpch_4_0_0", "tpch_5_0_0", "tpch_6_0_0", "tpch_7_0_0", "tpch_8_0_0", "tpch_9_0_0",
   "tpch_10_0_0"]

lemma databaseNames_nodup : databaseNames.Nodup := by
  apply nodup_of_spelled
  · dsimp only [databaseNames]
    repeat' first | exact List.Forall₂.nil | rfl | apply List.Forall₂.cons
  · decide

/-! ## The loop over the lines -/

structure Reader where
  databaseIdx : Int
  exprEeops : Dict String (Dict Int (List Text))

/-- `names[idx]`: a negative index counts from the end, and `none` is an
`IndexError`. -/
def item (names : List String) (idx : Int) : Option String :=
  if 0 ≤ idx then names[idx.toNat]?
  else if 0 ≤ names.length + idx then names[(names.length + idx).toNat]? else none

/-- A line with number 1 starts the dictionary of the next database. -/
def nextDatabase (names : List String) (s : Reader) : Option Reader :=
  (item names (s.databaseIdx + 1)).map fun name =>
    { databaseIdx := s.databaseIdx + 1, exprEeops := s.exprEeops.set name Dict.empty }

/-- `expr_eeops[database_names[database_idx]][expr_id] = eeops`. -/
def setEeops (names : List String) (s : Reader) (exprId : Int) (eeops : List Text) :
    Option Reader :=
  match item names s.databaseIdx with
  | none => none
  | some name =>
    match s.exprEeops.get? name with
    | none => none
    | some dict =>
      some { s with exprEeops := s.exprEeops.set name (dict.set exprId eeops) }

/-- One round of the loop; `none` is an exception. -/
def readLine (names : List String) (s : Reader) (line : Text) : Option Reader :=
  let line := strip line
  if ':' ∈ line then
    match (words (line.takeWhile (· ≠ ':')))[1]? with
    | none => none
    | some number =>
      match intOf number with
      | none => none
      | some exprId =>
        match if exprId = 1 then nextDatabase names s else some s with
        | none => none
        | some s => setEeops names s exprId (words (strip (line.dropWhile (· ≠ ':')).tail))
  else some s

def readEeops (names : List String) (file : Text) : Option Reader :=
  (lines file).foldlM (readLine names) ⟨-1, Dict.empty⟩

/-! ## A line of the server -/

lemma not_blank {c : Char} (plain : isNameChar c = true) : isBlank c = false := by
  have range : (65 ≤ c.toNat ∧ c.toNat ≤ 90) ∨ c.toNat = 95 := by simpa [isNameChar] using plain
  simp only [isBlank, isSpace, Bool.or_eq_false_iff, beq_eq_false_iff_ne, Bool.and_eq_false_iff,
    decide_eq_false_iff_not]
  omega

lemma marker_not_blank : ∀ c ∈ marker, isBlank c = false ∧ c ≠ ':' :=
  List.all_iff_forall_prop.mp (by decide)

section Line

variable {steps : List Int} (sequence : IsSequence steps)
include sequence

lemma stepsText_blank : ∀ c ∈ stepsText steps, isBlank c = true → c = ' ' := by
  intro c member blank
  obtain plain | space := mem_stepsText sequence.2.2 member
  · rw [not_blank plain] at blank
    cases blank
  · exact space

lemma getLast?_stepsText : ∀ c ∈ (stepsText steps).getLast?, isBlank c = false := by
  obtain none | ⟨init, last, rfl⟩ := List.eq_nil_or_concat' steps
  · exact absurd none sequence.ne_nil
  · obtain ⟨some, plain⟩ := name_plain (sequence.2.2 last (by simp))
    intro c end_
    have text : stepsText (init ++ [last]) = (stepsText init ++ [' ']) ++ getExprEvalOpNameById last := by
      simp [stepsText]
    rw [text, List.getLast?_append_of_ne_nil _ some] at end_
    exact not_blank (plain c (List.mem_of_getLast? end_))

lemma words_stepsText : words (strip (stepsText steps)) = steps.map getExprEvalOpNameById := by
  have blanks := stepsText_blank sequence
  have last := getLast?_stepsText sequence
  rw [← tokens_stepsText sequence.2.2]
  obtain ⟨step, rest, rfl⟩ := List.exists_cons_of_ne_nil sequence.ne_nil
  obtain ⟨some, plain⟩ := name_plain (sequence.2.2 step (by simp))
  obtain ⟨c, name, spelled⟩ := List.exists_cons_of_ne_nil some
  have text : stepsText (step :: rest) = ' ' :: c :: (name ++ stepsText rest) := by
    rw [stepsText_cons, spelled, List.cons_append]
  rw [text] at blanks last ⊢
  have stripped : strip (' ' :: c :: (name ++ stepsText rest)) = c :: (name ++ stepsText rest) := by
    have trimmed : Trimmed (c :: (name ++ stepsText rest)) := by
      refine ⟨fun d first => ?_, fun d end_ => last d (by simpa using end_)⟩
      cases first
      exact not_blank (plain c (by simp [spelled]))
    simpa using strip_append (a := [' ']) (b := []) (List.forall_mem_singleton.mpr (by decide))
      trimmed (by simp) (by simp)
  rw [stripped, words_eq_tokens fun d member => blanks d (List.mem_cons_of_mem _ member),
    tokens_delimiter]

lemma strip_exprLine (id : Nat) : strip (exprLine id steps ++ [newline]) = exprLine id steps := by
  have some : stepsText steps ≠ [] := by
    obtain ⟨step, rest, rfl⟩ := List.exists_cons_of_ne_nil sequence.ne_nil
    simp [stepsText_cons]
  have trimmed : Trimmed (exprLine id steps) := by
    refine ⟨fun c first => ?_, fun c end_ => getLast?_stepsText sequence c ?_⟩
    · cases first
      decide
    · have text : exprLine id steps = (marker ++ ' ' :: (decimal id ++ [':'])) ++ stepsText steps := by
        simp [exprLine]
      rwa [text, List.getLast?_append_of_ne_nil _ some] at end_
  simpa using strip_append (a := []) (b := [newline]) (by simp) trimmed
    (List.forall_mem_singleton.mpr (by decide)) (by simp [exprLine])

omit sequence in
lemma words_number (id : Nat) : words (marker ++ ' ' :: decimal id) = [marker, decimal id] := by
  have blanks : ∀ c ∈ marker ++ ' ' :: decimal id, isBlank c = true → c = ' ' := by
    intro c member blank
    simp only [List.mem_append, List.mem_cons] at member
    obtain inMarker | space | inNumber := member
    · rw [(marker_not_blank c inMarker).1] at blank
      cases blank
    · exact space
    · have digit := isDigit_iff.mp (isDigit_of_mem_decimal inNumber)
      simp only [isBlank, isSpace, Bool.or_eq_true, beq_iff_eq, Bool.and_eq_true,
        decide_eq_true_eq] at blank
      omega
  have number : ' ' ∉ decimal id := fun space => absurd (isDigit_of_mem_decimal space) (by decide)
  have word : ' ' ∉ marker := fun space => (marker_plain _ space).1 rfl
  rw [words_eq_tokens blanks, tokens_word word (by decide) (.inr rfl), tokens_delimiter]
  have last : tokens ' ' (decimal id ++ []) = decimal id :: tokens ' ' [] :=
    tokens_word number (decimal_ne_nil id) (.inl rfl)
  rw [List.append_nil] at last
  rw [last]
  rfl

lemma readLine_exprLine (names : List String) (s : Reader) (id : Nat) :
    readLine names s (exprLine id steps ++ [newline]) =
      match if (id : Int) = 1 then nextDatabase names s else some s with
      | none => none
      | some s => setEeops names s id (steps.map getExprEvalOpNameById) := by
  have text : exprLine id steps = (marker ++ ' ' :: decimal id) ++ ':' :: stepsText steps := by
    simp [exprLine]
  have before : ∀ c ∈ marker ++ ' ' :: decimal id, decide (c ≠ ':') = true := by
    intro c member
    simp only [List.mem_append, List.mem_cons] at member
    apply decide_eq_true
    obtain inMarker | rfl | inNumber := member
    · exact (marker_not_blank c inMarker).2
    · decide
    · exact (decimal_plain id c inNumber).1
  have number : (exprLine id steps).takeWhile (· ≠ ':') = marker ++ ' ' :: decimal id := by
    rw [text, List.takeWhile_append_of_pos before]
    simp
  have rest : ((exprLine id steps).dropWhile (· ≠ ':')).tail = stepsText steps := by
    rw [text, List.dropWhile_append_of_pos before]
    simp
  have colon : ':' ∈ exprLine id steps := by simp [text]
  simp only [readLine, strip_exprLine sequence, colon, if_true, number, words_number,
    List.getElem?_cons_succ, List.getElem?_cons_zero, intOf_decimal, rest,
    words_stepsText sequence]

end Line

/-! ## Sections -/

/-- A line with number 1 starts a section, any other belongs to the last one. -/
def addLine (sections : List (List (Nat × List Int))) (line : Nat × List Int) :
    List (List (Nat × List Int)) :=
  if line.1 = 1 then sections ++ [[line]]
  else
    match sections.getLast? with
    | none => []
    | some last => sections.dropLast ++ [last ++ [line]]

/-- The lines of a file, cut in front of every line with number 1. -/
def sections (log : List (Nat × List Int)) : List (List (Nat × List Int)) := log.foldl addLine []

lemma addLine_last {init : List (List (Nat × List Int))} {last : List (Nat × List Int)} (later : line.1 ≠ 1) :
    addLine (init ++ [last]) line = init ++ [last ++ [line]] := by
  simp [addLine, later]

lemma length_le_addLine (secs : List (List (Nat × List Int))) (line : Nat × List Int) :
    secs.length ≤ (addLine secs line).length := by
  by_cases one : line.1 = 1
  · simp [addLine, one]
  · obtain rfl | ⟨init, last, rfl⟩ := List.eq_nil_or_concat' secs
    · simp
    · simp [addLine_last one]

lemma sections_concat (log : List (Nat × List Int)) (line : Nat × List Int) :
    sections (log ++ [line]) = addLine (sections log) line := by
  simp [sections]

lemma sections_ne_nil (some : log ≠ []) (first : ∀ line ∈ log.head?, line.1 = 1) : sections log ≠ [] := by
  obtain ⟨l, log, rfl⟩ := List.exists_cons_of_ne_nil some
  have cut : sections (l :: log) = log.foldl addLine [[l]] := by simp [sections, addLine, first l rfl]
  rw [cut]
  refine List.foldlRecOn (b := [[l]]) (motive := (· ≠ [])) log addLine (by simp) fun secs some line _ => ?_
  exact List.ne_nil_of_length_pos ((List.length_pos_iff.mpr some).trans_le (length_le_addLine secs line))

/-- The dictionaries hold the lines of the sections. -/
structure Holds (names : List String) (s : Reader) (secs : List (List (Nat × List Int))) : Prop where
  idx : s.databaseIdx = secs.length - 1
  bound : secs.length ≤ names.length
  found : ∀ (j : Nat) (sec : List (Nat × List Int)) (name : String), secs[j]? = some sec →
    names[j]? = some name → ∃ dict, s.exprEeops.get? name = some dict ∧
      ∀ n : Nat, dict.get? n = (latest n sec).map (·.map getExprEvalOpNameById)
  absent : ∀ (j : Nat) (name : String), names[j]? = some name → secs.length ≤ j → s.exprEeops.get? name = none

lemma holds_initial (names : List String) : Holds names ⟨-1, Dict.empty⟩ [] where
  idx := rfl
  bound := Nat.zero_le _
  found := by simp
  absent _ _ _ _ := rfl

lemma item_natCast (names : List String) (j : Nat) : item names (j : Int) = names[j]? := by
  simp [item]

lemma concat_cases {A : Type} {l : List A} {x v : A} {j : Nat} (found : (l ++ [x])[j]? = some v) :
    (j < l.length ∧ l[j]? = some v) ∨ (j = l.length ∧ v = x) := by
  obtain inside | beyond := Nat.lt_or_ge j l.length
  · exact .inl ⟨inside, by rwa [List.getElem?_append_left inside] at found⟩
  · have bound := (List.getElem?_eq_some_iff.mp found).1
    simp only [List.length_append, List.length_singleton] at bound
    obtain rfl : j = l.length := by omega
    rw [List.getElem?_concat_length, Option.some.injEq] at found
    exact .inr ⟨rfl, found.symm⟩

section Holds

variable {names : List String} (distinct : names.Nodup) {s : Reader}
  {secs : List (List (Nat × List Int))}
include distinct

lemma index_eq {i j : Nat} {name : String} (first : names[i]? = some name) (second : names[j]? = some name) : i = j :=
  (List.getElem?_inj (List.getElem?_eq_some_iff.mp first).1 distinct).mp (first.trans second.symm)

/-- The dictionary of the last section is set; it may be a new section. -/
lemma Holds.set {init tail : List (List (Nat × List Int))} (holds : Holds names s (init ++ tail))
    (short : tail.length ≤ 1) (room : init.length < names.length) {dict : Dict Int (List Text)}
    {new : List (Nat × List Int)} (same : ∀ n : Nat, dict.get? n = (latest n new).map (·.map getExprEvalOpNameById)) :
    Holds names ⟨init.length, s.exprEeops.set names[init.length] dict⟩ (init ++ [new]) := by
  have name : names[init.length]? = some names[init.length] := List.getElem?_eq_getElem room
  have differs {j : Nat} {other : String} (named : names[j]? = some other) (apart : j ≠ init.length) :
      other ≠ names[init.length] := by
    rintro rfl
    exact apart (index_eq distinct named name)
  refine ⟨by simp, by simpa using room, fun j sec other inSecs named => ?_, fun j other named beyond => ?_⟩
  · obtain ⟨inside, older⟩ | ⟨rfl, rfl⟩ := concat_cases inSecs
    · rw [← List.getElem?_append_left inside] at older
      simpa [Dict.get?_set, differs named inside.ne] using holds.found j sec other older named
    · rw [name, Option.some.injEq] at named
      exact ⟨dict, by simp [Dict.get?_set, named], same⟩
  · rw [List.length_append, List.length_singleton] at beyond
    simpa [Dict.get?_set, differs named (by omega)] using
      holds.absent j other named (by rw [List.length_append]; omega)

lemma Holds.nextDatabase (holds : Holds names s secs) (room : secs.length < names.length) :
    ∃ s', nextDatabase names s = some s' ∧ Holds names s' (secs ++ [[]]) := by
  have next : s.databaseIdx + 1 = secs.length := by rw [holds.idx]; omega
  rw [ExprDictionary.nextDatabase, next, item_natCast, List.getElem?_eq_getElem room]
  rw [← List.append_nil secs] at holds
  exact ⟨_, rfl, holds.set distinct (Nat.zero_le 1) room fun n => rfl⟩

/-- A line is entered in the dictionary of the last section. -/
lemma Holds.setEeops {init : List (List (Nat × List Int))} {last : List (Nat × List Int)}
    (holds : Holds names s (init ++ [last])) (id : Nat) (steps : List Int) :
    ∃ s', setEeops names s id (steps.map getExprEvalOpNameById) = some s' ∧
      Holds names s' (init ++ [last ++ [(id, steps)]]) := by
  have current : s.databaseIdx = init.length := by rw [holds.idx]; simp
  have room : init.length < names.length := by simpa using holds.bound
  have name : names[init.length]? = some names[init.length] := List.getElem?_eq_getElem room
  obtain ⟨dict, here, same⟩ := holds.found init.length last _ List.getElem?_concat_length name
  simp only [ExprDictionary.setEeops, current, item_natCast, name, here]
  refine ⟨_, rfl, holds.set distinct le_rfl room fun n => ?_⟩
  rw [Dict.get?_set, latest_concat, same]
  by_cases asked : n = id
  · simp [asked]
  · simp [asked, Ne.symm asked]

/-- One line of the server: it is entered while there is a name for its section. -/
lemma Holds.readLine (holds : Holds names s secs) {line : Nat × List Int}
    (sequence : IsSequence line.2) (begun : line.1 = 1 ∨ secs ≠ []) :
    if (addLine secs line).length ≤ names.length then
      ∃ s', readLine names s (exprLine line.1 line.2 ++ [newline]) = some s' ∧ Holds names s' (addLine secs line)
    else readLine names s (exprLine line.1 line.2 ++ [newline]) = none := by
  rw [readLine_exprLine sequence]
  by_cases one : line.1 = 1
  · have cut : addLine secs line = secs ++ [[line]] := if_pos one
    have restart : (line.1 : Int) = 1 := by omega
    rw [cut, if_pos restart]
    split_ifs with room
    · obtain ⟨t, next, holds'⟩ := holds.nextDatabase distinct (by simpa using room)
      rw [next]
      exact holds'.setEeops distinct line.1 line.2
    · have full : ExprDictionary.nextDatabase names s = none := by
        have next : s.databaseIdx + 1 = secs.length := by rw [holds.idx]; omega
        rw [ExprDictionary.nextDatabase, next, item_natCast, List.getElem?_eq_none (by simpa using room)]
        rfl
      rw [full]
  · have later : ¬ (line.1 : Int) = 1 := by omega
    obtain none | ⟨init, last, rfl⟩ := List.eq_nil_or_concat' secs
    · exact absurd none (begun.resolve_left one)
    · have same : (addLine (init ++ [last]) line).length ≤ names.length := by
        simpa [addLine_last one] using holds.bound
      rw [if_neg later, if_pos same, addLine_last one]
      exact holds.setEeops distinct line.1 line.2

/-- **The dictionaries of a file of the server**: as long as there are names, the
`j`-th name has the lines of the `j`-th section. -/
theorem readEeops_spec {log : List (Nat × List Int)} (valid : ∀ line ∈ log, IsSequence line.2)
    (first : ∀ line ∈ log.head?, line.1 = 1) :
    if (sections log).length ≤ names.length then
      ∃ s, readEeops names (fileOf (log.map fun line => exprLine line.1 line.2)) = some s ∧ Holds names s (sections log)
    else readEeops names (fileOf (log.map fun line => exprLine line.1 line.2)) = none := by
  have plain : ∀ text ∈ log.map (fun line => exprLine line.1 line.2), newline ∉ text := by
    intro text member
    obtain ⟨line, inLog, rfl⟩ := List.mem_map.mp member
    exact newline_not_mem_exprLine (valid line inLog).2.2 line.1
  rw [readEeops, lines_fileOf plain, List.map_map]
  clear plain
  induction log using List.reverseRecOn with
  | nil => exact ⟨_, rfl, holds_initial names⟩
  | append_singleton log line ih =>
    have before := ih (fun l member => valid l (by simp [member])) (fun l member => first l (by cases log <;> simp_all))
    have begun : line.1 = 1 ∨ sections log ≠ [] := by
      cases log with
      | nil => exact .inl (first line rfl)
      | cons l log => exact .inr (sections_ne_nil (by simp) fun k member => first k (by simpa using member))
    rw [List.map_append, List.foldlM_append, sections_concat]
    by_cases fits : (sections log).length ≤ names.length
    · rw [if_pos fits] at before
      obtain ⟨s, ran, holds⟩ := before
      have step := holds.readLine distinct (valid line (by simp)) begun
      simpa [ran] using step
    · rw [if_neg fits] at before
      have more : ¬ (addLine (sections log) line).length ≤ names.length := fun room =>
        fits ((length_le_addLine _ line).trans room)
      rw [if_neg more, before]
      rfl

end Holds

/-! ## The dictionary of a server -/

def fileText (served : Served) : Text :=
  fileOf (served.lines.map fun line => exprLine line.1 line.2)

/-- The script ends, and finds under every number of `report.csv`, for the database
of its backend, the steps the backend has under it. -/
def DictionaryRight (served : Served) : Prop :=
  ∃ s, readEeops databaseNames (fileText served) = some s ∧
    ∀ r ∈ served.reports, ∃ name dict, databaseNames[r.database]? = some name ∧ s.exprEeops.get? name = some dict ∧
      dict.get? r.id = some (r.steps.map getExprEvalOpNameById)

/-- There is a name for every section, and the last line with a number of
`report.csv`, in the section with the index of the database, has the steps. -/
def SectionsRight (served : Served) : Prop :=
  (sections served.lines).length ≤ databaseNames.length ∧
    ∀ r ∈ served.reports, ∃ sec, (sections served.lines)[r.database]? = some sec ∧ latest r.id sec = some r.steps

lemma map_name_injective {a b : List Int} (codesA : ∀ step ∈ a, IsCode step) (codesB : ∀ step ∈ b, IsCode step)
    (same : a.map getExprEvalOpNameById = b.map getExprEvalOpNameById) : a = b := by
  have read : ∀ {l : List Int}, (∀ step ∈ l, IsCode step) →
      (l.map getExprEvalOpNameById).map getExprEvalOpValue = l := fun {l} codes => by
    rw [List.map_map]
    exact (List.map_congr_left fun step member => value_name (codes step member)).trans (List.map_id l)
  rw [← read codesA, same, read codesB]

lemma flatten_addLine (secs : List (List (Nat × List Int))) (line : Nat × List Int) :
    (addLine secs line).flatten.Sublist (secs.flatten ++ [line]) := by
  by_cases one : line.1 = 1
  · simp [addLine, one]
  · obtain rfl | ⟨init, last, rfl⟩ := List.eq_nil_or_concat' secs
    · simp [addLine, one]
    · simp [addLine_last one]

lemma flatten_sections (log : List (Nat × List Int)) : (sections log).flatten.Sublist log := by
  induction log using List.reverseRecOn with
  | nil => exact List.Sublist.refl _
  | append_singleton log line ih =>
    rw [sections_concat]
    exact (flatten_addLine _ line).trans (ih.append_right [line])

lemma dictionaryRight_iff {served : Served} (consistent : Consistent served) :
    DictionaryRight served ↔ SectionsRight served := by
  have spec := readEeops_spec databaseNames_nodup consistent.sequences consistent.first
  constructor
  · rintro ⟨s, read, right⟩
    split_ifs at spec with room
    · obtain ⟨s', read', holds⟩ := spec
      obtain rfl : s = s' := Option.some.inj (read.symm.trans read')
      refine ⟨room, fun r member => ?_⟩
      obtain ⟨name, dict, named, here, entry⟩ := right r member
      cases sec : (sections served.lines)[r.database]? with
      | none =>
        rw [holds.absent r.database name named (List.getElem?_eq_none_iff.mp sec)] at here
        cases here
      | some sec' =>
        obtain ⟨dict', here', same⟩ := holds.found r.database sec' name sec named
        obtain rfl : dict = dict' := Option.some.inj (here.symm.trans here')
        rw [same, Option.map_eq_some_iff] at entry
        obtain ⟨steps, last, named⟩ := entry
        have codes : ∀ step ∈ steps, IsCode step := (consistent.sequences _ ((flatten_sections _).subset
          (List.mem_flatten_of_mem (List.mem_of_getElem? sec) (latest_mem last)))).2.2
        exact ⟨sec', rfl, by rw [last, map_name_injective codes (consistent.codes r member) named]⟩
    · rw [fileText, spec] at read
      cases read
  · rintro ⟨room, right⟩
    rw [if_pos room] at spec
    obtain ⟨s, read, holds⟩ := spec
    refine ⟨s, read, fun r member => ?_⟩
    obtain ⟨sec, inside, last⟩ := right r member
    have bound : r.database < databaseNames.length :=
      (List.getElem?_eq_some_iff.mp inside).1.trans_le room
    have named := List.getElem?_eq_getElem bound
    obtain ⟨dict, here, same⟩ := holds.found r.database sec _ inside named
    exact ⟨_, dict, named, here, by rw [same, last]; rfl⟩

/-- **The dictionaries of the script are right exactly when the sections of the
file are**, for every number of backends and every interleaving. -/
theorem eeops_dictionary_iff (garbage : Nat → Nat → Int) {h : History} (valid : h.Valid)
    {served : Served} (ran : serve garbage h = some served) : DictionaryRight served ↔ SectionsRight served :=
  dictionaryRight_iff (consistent_serve valid ran)

/-! ## One backend for each database -/

section Single

variable {earlier : List (List (Nat × List Int))} {log : List (List Int)} {n b : Nat} {s s' : Served} {e : Event}
  {phase : List Event} {phases : List (List Event)} {garbage : Nat → Nat → Int}

/-- The lines of a backend that has logged `log`. -/
def numbered (log : List (List Int)) : List (Nat × List Int) := log.zipIdx.map fun x => (x.2 + 1, x.1)

lemma numbered_concat (log : List (List Int)) (steps : List Int) :
    numbered (log ++ [steps]) = numbered log ++ [(log.length + 1, steps)] := by
  simp [numbered, List.zipIdx_append]

lemma latest_numbered (m : Nat) (log : List (List Int)) : latest (m + 1) (numbered log) = log[m]? := by
  induction log using List.reverseRecOn with
  | nil => rfl
  | append_singleton log steps ih =>
    rw [numbered_concat, latest_concat, ih, List.getElem?_append]
    grind

/-- The last line with the number of a report has its steps. -/
def Right (secs : List (List (Nat × List Int))) (r : Report) : Prop :=
  ∃ sec, secs[r.database]? = some sec ∧ latest r.id sec = some r.steps

/-- Behind the sections of other databases there are the lines of one backend. -/
structure Own (earlier : List (List (Nat × List Int))) (b : Nat) (s : Served) (log : List (List Int)) : Prop where
  refines : Refines log (s.tables b)
  cut : sections s.lines = if log = [] then earlier else earlier ++ [numbered log]
  reports : ∀ r ∈ s.reports, Right earlier r ∨
    r.database = earlier.length ∧ ∃ m, r.id = m + 1 ∧ log[m]? = some r.steps

lemma Own.handle (own : Own earlier e.backend s log) (ran : handle earlier.length s e = some s') :
    ∃ log' ≠ [], Own earlier e.backend s' log' := by
  unfold Kernel.Backends.handle at ran
  split at ran
  · cases ran
  rename_i t' entry added
  cases ran
  obtain ⟨log', some, refines, same, found⟩ := addExpression_logged own.refines added
  refine ⟨log', some, by simpa using refines, ?_, List.forall_mem_append.mpr ⟨fun r member => ?_, fun r member => ?_⟩⟩
  · rw [if_neg some, newLine, refines.count, own.refines.count]
    have cut := own.cut
    obtain rfl | rfl := same
    · simpa [some] using cut
    · rw [if_neg (by simp), List.length_append, List.length_singleton, sections_concat, cut, numbered_concat]
      split_ifs with none
      · simp [none, addLine, numbered]
      · exact addLine_last (by simpa using none)
  · refine (own.reports r member).imp_right fun ⟨here, m, number, logged⟩ => ⟨here, m, number, ?_⟩
    obtain rfl | rfl := same
    · exact logged
    · rw [List.getElem?_append_left (List.getElem?_eq_some_iff.mp logged).1, logged]
  · unfold newReport at member
    split at member
    · split_ifs at member
      · rw [List.mem_singleton.mp member]
        exact .inr ⟨rfl, found _ rfl⟩
      · cases member
    · cases member

/-- The databases so far have a section each, and it is right. -/
def Cut (s : Served) (n : Nat) : Prop := (sections s.lines).length = n ∧ ∀ r ∈ s.reports, Right (sections s.lines) r

lemma Cut.serveDatabase (before : Cut s n) (some : phase ≠ []) (single : ∀ e ∈ phase, e.backend = b)
    (ran : serveDatabase (initial garbage) s (phase, n) = .some s') : Cut s' (n + 1) := by
  obtain ⟨rfl, right⟩ := before
  obtain ⟨e, rest, rfl⟩ := List.exists_cons_of_ne_nil some
  obtain ⟨rfl, same⟩ := List.forall_mem_cons.mp single
  obtain ⟨s1, first, later⟩ := Option.bind_eq_some_iff.mp ran
  have start : Own (sections s.lines) e.backend { s with tables := fun _ => initial garbage } [] :=
    ⟨refines_initial garbage, rfl, fun r member => .inl (right r member)⟩
  obtain ⟨log, some, own⟩ := foldlM_invariant (P := fun x => ∃ log ≠ [], Own (sections s.lines) e.backend x log)
    (fun x e' x' member ⟨log, _, own⟩ call => by
      rw [← same e' member] at own ⊢
      exact own.handle call) (start.handle first) later
  rw [Cut, own.cut, if_neg some, List.length_append]
  refine ⟨rfl, fun r member => ?_⟩
  obtain ⟨sec, inside, last⟩ | ⟨here, m, number, logged⟩ := own.reports r member
  · exact ⟨sec, by rw [List.getElem?_append_left (List.getElem?_eq_some_iff.mp inside).1, inside], last⟩
  · exact ⟨numbered log, by simp [here], by rw [number, latest_numbered, logged]⟩

lemma Cut.run (cut : Cut s n) (single : ∀ phase ∈ phases, phase ≠ [] ∧ ∃ b, ∀ e ∈ phase, e.backend = b)
    (ran : (phases.zipIdx n).foldlM (Kernel.Backends.serveDatabase (initial garbage)) s = some s') :
    Cut s' (n + phases.length) := by
  induction phases generalizing s n with
  | nil =>
    cases ran
    exact cut
  | cons phase phases ih =>
    obtain ⟨⟨some, b, same⟩, others⟩ := List.forall_mem_cons.mp single
    obtain ⟨s1, first, later⟩ := Option.bind_eq_some_iff.mp ran
    rw [List.length_cons, Nat.add_comm phases.length, ← Nat.add_assoc]
    exact ih (cut.serveDatabase some same first) others later

/-- **The sections are right where each database has one backend**, with some expression, and nothing is
preloaded. -/
theorem sectionsRight_of_single {h : History} {served : Served} (preload : h.preload = [])
    (named : h.databases.length ≤ databaseNames.length)
    (single : ∀ phase ∈ h.databases, phase ≠ [] ∧ ∃ b, ∀ e ∈ phase, e.backend = b)
    (ran : serve garbage h = some served) : SectionsRight served := by
  rw [serve, start, preload] at ran
  have cut : Cut ⟨fun _ => initial garbage, [], []⟩ 0 := ⟨rfl, by simp⟩
  obtain ⟨length, right⟩ := cut.run single ran
  rw [Nat.zero_add] at length
  exact ⟨length ▸ named, right⟩

end Single

def oneBackendEach : History where
  preload := []
  databases := [[⟨0, [3, 6, 0], true⟩, ⟨0, [16, 14, 0], true⟩], [⟨0, [16, 14, 0], true⟩]]

lemma oneBackendEach_valid : oneBackendEach.Valid := by
  unfold History.Valid oneBackendEach
  decide

theorem eeops_dictionary_each : ∃ served, serve (fun _ _ => 0) oneBackendEach = some served ∧
    SectionsRight served ∧ DictionaryRight served := by
  have isSome : (serve (fun _ _ => 0) oneBackendEach).isSome = true := by decide
  obtain ⟨served, ran⟩ := Option.isSome_iff_exists.mp isSome
  have right := sectionsRight_of_single rfl (by decide) (by simp [oneBackendEach]) ran
  exact ⟨served, ran, right, (eeops_dictionary_iff _ oneBackendEach_valid ran).mpr right⟩

/-- Two backends of one database, each with an expression of its own. -/
def twoBackends : History where
  preload := []
  databases := [[⟨0, [3, 6, 0], true⟩, ⟨1, [16, 14, 0], true⟩]]

lemma twoBackends_valid : twoBackends.Valid := by
  unfold History.Valid twoBackends
  decide

/-- The second backend means another expression by its number 1. -/
theorem second_backend_lost : twoBackends.Valid ∧
    ∃ served, serve (fun _ _ => 0) twoBackends = some served ∧ ¬ DictionaryRight served := by
  have runs : (serve (fun _ _ => 0) twoBackends).map (fun s => (s.lines, s.reports)) =
      some ([(1, [3, 6, 0]), (1, [16, 14, 0])], [⟨0, 1, [3, 6, 0]⟩, ⟨0, 1, [16, 14, 0]⟩]) := by
    decide
  obtain ⟨served, ran, seen⟩ := Option.map_eq_some_iff.mp runs
  simp only [Prod.mk.injEq] at seen
  refine ⟨twoBackends_valid, served, ran, ?_⟩
  rw [dictionaryRight_iff (consistent_serve twoBackends_valid ran)]
  rintro ⟨_, right⟩
  rw [seen.1, seen.2] at right
  obtain ⟨sec, first, last⟩ := right ⟨0, 1, [16, 14, 0]⟩ (by simp)
  cases first
  exact absurd last (by decide)

end Hex.Analysis.ExprDictionary
