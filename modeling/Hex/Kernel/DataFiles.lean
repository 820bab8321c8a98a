/-
# Kernel.DataFiles — the files that are collected for the models

A statement with expressions leaves a record in each of four files:
`exec_simple_query` (tcop/postgres.c) starts the line of time.csv, and at the end
writes the block of operator.csv and the line of report.csv; `jit_compile_expr`
(jit/jit.c) writes to jit.csv for each expression with a slot; `ExplainOnePlan`
(commands/explain.c) ends the lines of time.csv and jit.csv, and so does
`llvm_get_function` (jit/llvm/llvmjit.c) when it fails. The line of jit.csv is ended
whether the statement has expressions or not.

`Aligned` says that every statement with expressions has one record in each file.
`aligned_iff` says when: `Regular`, for each statement by itself.
-/
import Hex.Kernel.Session
import Hex.Theory.SharedFile
import Mathlib.Data.List.Induction

namespace Hex.Kernel.DataFiles

open PlanRecords Session Theory.CText Theory.SharedFile

/-! ## What is written -/

/-- How `printf` writes a double with `%.6lf` and `%.0lf`. -/
structure Printf (D : Type) where
  decimal : D → Text
  rounded : D → Text
  decimal_plain : ∀ d, newline ∉ decimal d
  rounded_plain : ∀ d, newline ∉ rounded d

/-- `%d`. -/
def printInt (z : Int) : Text := if z < 0 then '-' :: decimal z.natAbs else decimal z.natAbs

/-- What happens in a statement that is written to time.csv or jit.csv: an expression
gets its level, a plan has been explained, or the loop over the handles of a JIT context
ends without a function. With LLVM 15 a lookup that fails raises an error inside the loop. -/
inductive Event (D : Type) where
  | levelled (expressionId level optId : Int) (type : PlanTag) (startupCost totalCost : D)
  | explained (jitLevel : Int) (generation inlining optimization emission total plan exec : D)
  | jitFailed

/-- A statement; `finish` is the state in which `exec_simple_query` reaches its end,
which it does not when the statement fails. -/
structure Statement (D : Type) where
  text : Text
  events : List (Event D)
  finish : Option (State D)

section Files

variable {D : Type} (pf : Printf D) (db : Text)

def fields (ts : List Text) : Text := [','].intercalate ts

def timeEvent : Event D → Text
  | .levelled _ _ _ _ _ _ => []
  | .explained jitLevel generation inlining optimization emission total plan exec =>
    fields (printInt jitLevel ::
      [generation, inlining, optimization, emission, total, plan, exec].map pf.decimal) ++ [newline]
  | .jitFailed => "-1,0.0,0.0,0.0,0.0,0.0,0.0,0.0\n".toList

/-- What an event appends to jit.csv; `contains` is the flag `containExpr`. -/
def jitEvent (contains : Bool) : Event D → Text
  | .levelled expressionId level optId type startupCost totalCost =>
    if contains then
      fields [printInt expressionId, printInt level, printInt optId, (getNodeTagName type).toList,
        pf.decimal startupCost, pf.decimal totalCost] ++ [',']
    else []
  | .explained _ _ _ _ _ _ plan exec => fields [pf.decimal plan, pf.decimal exec] ++ [newline]
  | .jitFailed => "0\n".toList

/-- The start of a line: the statement in quotes, and the database. -/
def header (st : Statement D) : Text := '"' :: st.text ++ "\",".toList ++ db

def keyFields (r : OperatorInfo D) : List Text :=
  [printInt r.optId, (getNodeTagName r.type).toList, pf.decimal r.startupCost,
    pf.decimal r.totalCost]

def invalidFields : List Text := ["0".toList, "T_Invalid".toList, "0.0".toList, "0.0".toList]

/-- The fields of a child; the pointers of the records lead to records. -/
def childFields (recs : List (OperatorInfo D)) (child : Option Nat) : List Text :=
  match child with
  | none => invalidFields
  | some i => (recs[i]?.map (keyFields pf)).getD []

def operatorFields (recs : List (OperatorInfo D)) (r : OperatorInfo D) : List Text :=
  keyFields pf r ++ [pf.rounded r.actualInputRows, pf.rounded r.actualOutputRows, pf.rounded r.filteredRows,
      pf.decimal r.actualStartupTime, pf.decimal r.actualTotalTime] ++
    childFields pf recs r.left ++ childFields pf recs r.right

def operatorLine (recs : List (OperatorInfo D)) (r : OperatorInfo D) : Text := fields (operatorFields pf recs r)

/-- The fields of an expression in report.csv; its pointer leads to a record. -/
def exprFields (s : State D) (info : ExprInfo) : List Text :=
  printInt info.expressionId :: printInt info.count :: match info.op with
    | none => invalidFields
    | some p => (s.currentSQLOpts[p.index]?.map (keyFields pf)).getD []

def timePart (st : Statement D) : Text :=
  if containExpr st.text then header db st ++ [','] ++ st.events.flatMap (timeEvent pf) else []

def jitPart (st : Statement D) : Text := st.events.flatMap (jitEvent pf (containExpr st.text))

def operatorPart (st : Statement D) : Text :=
  match st.finish with
  | none => []
  | some s =>
    if containExpr st.text then
      fileOf (s.currentSQLOpts.map (operatorLine pf s.currentSQLOpts)) ++ [newline]
    else []

def reportPart (st : Statement D) : Text :=
  match st.finish with
  | none => []
  | some s =>
    if containExpr st.text then
      header db st ++ (s.currentSQLExprs.filter fun info => info.expressionId ≠ 0).flatMap
          (fun info => ',' :: fields (exprFields pf s info)) ++ [newline]
    else []

/-! ## What is to be there -/

def Line (t : Text) : Prop := ∃ line, newline ∉ line ∧ t = line ++ [newline]

def Block (t : Text) : Prop :=
  ∃ rows, rows ≠ [] ∧ (∀ row ∈ rows, row ≠ [] ∧ newline ∉ row) ∧ t = fileOf rows ++ [newline]

/-- The numbers of the statements with expressions. -/
def owners (stmts : List (Statement D)) : List Nat :=
  ownersFrom 0 (stmts.map fun st => containExpr st.text)

/-- Each statement with expressions has one record in each of the four files, in the
order of the statements. -/
structure Aligned (stmts : List (Statement D)) : Prop where
  time : OneEach Line (fileFrom 0 (stmts.map (timePart pf db))) (owners stmts)
  jit : OneEach Line (fileFrom 0 (stmts.map (jitPart pf))) (owners stmts)
  report : OneEach Line (fileFrom 0 (stmts.map (reportPart pf db))) (owners stmts)
  operator : OneEach Block (fileFrom 0 (stmts.map (operatorPart pf))) (owners stmts)

def Event.closing : Event D → Bool
  | .levelled _ _ _ _ _ _ => false
  | _ => true

/-- The events of a statement end one line, and nothing happens behind it. -/
def ClosedOnce (events : List (Event D)) : Prop :=
  ∃ before last, events = before ++ [last] ∧ last.closing = true ∧ ∀ e ∈ before, e.closing = false

/-- A statement with expressions ends one line, does not fail and has an operator;
another one ends no line. -/
def Regular (st : Statement D) : Prop :=
  if containExpr st.text = true then
    newline ∉ st.text ∧ newline ∉ db ∧ ClosedOnce st.events ∧ ∃ s, st.finish = some s ∧ s.currentSQLOpts ≠ []
  else ∀ e ∈ st.events, e.closing = false

end Files

/-! ## Newlines -/

lemma line_iff (t : Text) : Line t ↔ t.count newline = 1 ∧ t.getLast? = some newline := by
  constructor
  · rintro ⟨line, plain, rfl⟩
    simp [List.count_append, List.count_eq_zero.mpr plain]
  · rintro ⟨once, last⟩
    obtain ⟨line, rfl⟩ := List.getLast?_eq_some_iff.mp last
    refine ⟨line, List.count_eq_zero.mp ?_, rfl⟩
    simpa [List.count_append] using once

lemma Line.getLast?_append {t : Text} (line : Line t) (before : Text) : (before ++ t).getLast? = some newline := by
  obtain ⟨line, -, rfl⟩ := line
  simp

@[simp] lemma printInt_plain (z : Int) : newline ∉ printInt z := by
  rw [printInt]
  split_ifs
  · simpa [newline] using newline_not_mem_decimal z.natAbs
  · exact newline_not_mem_decimal z.natAbs

lemma printInt_ne_nil (z : Int) : printInt z ≠ [] := by
  rw [printInt]
  split_ifs
  · simp
  · exact decimal_ne_nil _

@[simp] lemma tagName_plain (tag : PlanTag) : newline ∉ (getNodeTagName tag).toList := by
  cases tag <;> decide

attribute [simp] Printf.decimal_plain Printf.rounded_plain

lemma fields_plain {ts : List Text} (plain : ∀ t ∈ ts, newline ∉ t) : newline ∉ fields ts := by
  intro member
  obtain comma | ⟨t, inside, there⟩ := mem_intercalate member
  · exact absurd comma (by decide)
  · exact plain t inside there

lemma fields_ne_nil {t : Text} {ts : List Text} (some : t ≠ []) : fields (t :: ts) ≠ [] := by
  cases ts with
  | nil => simpa [fields] using some
  | cons next ts => simp [fields, List.intercalate_cons_cons]

section Files

variable {D : Type} (pf : Printf D) (db : Text) {events : List (Event D)} {st : Statement D}

lemma keyFields_plain (r : OperatorInfo D) : ∀ t ∈ keyFields pf r, newline ∉ t := by
  simp [keyFields]

lemma invalidFields_plain : ∀ t ∈ invalidFields, newline ∉ t := by decide

lemma pointedFields_plain (r : Option (OperatorInfo D)) : ∀ t ∈ (r.map (keyFields pf)).getD [], newline ∉ t := by
  cases r with
  | none => simp
  | some r => exact keyFields_plain pf r

lemma childFields_plain (recs : List (OperatorInfo D)) (child : Option Nat) :
    ∀ t ∈ childFields pf recs child, newline ∉ t := by
  cases child with
  | none => exact invalidFields_plain
  | some i => exact pointedFields_plain pf recs[i]?

lemma exprFields_plain (s : State D) (info : ExprInfo) : ∀ t ∈ exprFields pf s info, newline ∉ t := by
  simp only [exprFields, List.forall_mem_cons]
  refine ⟨printInt_plain _, printInt_plain _, ?_⟩
  cases info.op with
  | none => exact invalidFields_plain
  | some p => exact pointedFields_plain pf s.currentSQLOpts[p.index]?

lemma operatorLine_plain (recs : List (OperatorInfo D)) (r : OperatorInfo D) :
    operatorLine pf recs r ≠ [] ∧ newline ∉ operatorLine pf recs r := by
  constructor
  · exact fields_ne_nil (printInt_ne_nil r.optId)
  · apply fields_plain
    simp only [operatorFields, List.forall_mem_append]
    exact ⟨⟨⟨keyFields_plain pf r, by simp⟩, childFields_plain pf recs r.left⟩, childFields_plain pf recs r.right⟩

lemma header_plain (st : Statement D) : newline ∉ header db st ↔ newline ∉ st.text ∧ newline ∉ db := by
  have quote : newline ≠ '"' := by decide
  have comma : newline ≠ ',' := by decide
  simp [header, quote, comma]

/-! ## The events -/

lemma timeEvent_cases (e : Event D) :
    (e.closing = false ∧ timeEvent pf e = []) ∨ (e.closing = true ∧ Line (timeEvent pf e)) := by
  cases e with
  | levelled => exact .inl ⟨rfl, rfl⟩
  | explained jitLevel generation inlining optimization emission total plan exec =>
    exact .inr ⟨rfl, _, fields_plain (by simp), rfl⟩
  | jitFailed =>
    refine .inr ⟨rfl, "-1,0.0,0.0,0.0,0.0,0.0,0.0,0.0".toList, by decide, ?_⟩
    show "-1,0.0,0.0,0.0,0.0,0.0,0.0,0.0\n".toList = _
    decide

lemma jitEvent_cases (contains : Bool) (e : Event D) : (e.closing = false ∧ newline ∉ jitEvent pf contains e ∧
        if contains = true then jitEvent pf contains e ≠ [] else jitEvent pf contains e = []) ∨
      (e.closing = true ∧ Line (jitEvent pf contains e)) := by
  cases e with
  | levelled expressionId level optId type startupCost totalCost =>
    refine .inl ⟨rfl, ?_⟩
    cases contains with
    | false => simp [jitEvent]
    | true =>
      have plain : newline ∉ fields [printInt expressionId, printInt level, printInt optId,
          (getNodeTagName type).toList, pf.decimal startupCost, pf.decimal totalCost] :=
        fields_plain (by simp)
      have comma : newline ≠ ',' := by decide
      simp [jitEvent, plain, comma]
  | explained jitLevel generation inlining optimization emission total plan exec =>
    exact .inr ⟨rfl, _, fields_plain (by simp), rfl⟩
  | jitFailed =>
    refine .inr ⟨rfl, ['0'], by decide, ?_⟩
    show "0\n".toList = _
    decide

lemma count_newlines {f : Event D → Text}
    (each : ∀ e, (e.closing = false ∧ newline ∉ f e) ∨ (e.closing = true ∧ Line (f e))) :
    (events.flatMap f).count newline = events.countP Event.closing := by
  induction events with
  | nil => rfl
  | cons e events ih =>
    rw [List.flatMap_cons, List.count_append, ih, List.countP_cons]
    obtain ⟨quiet, plain⟩ | ⟨closing, line⟩ := each e
    · simp [quiet, List.count_eq_zero.mpr plain]
    · simp [closing, ((line_iff _).mp line).1, Nat.add_comm]

lemma closedOnce_concat (before : List (Event D)) (last : Event D) :
    ClosedOnce (before ++ [last]) ↔ last.closing = true ∧ ∀ e ∈ before, e.closing = false := by
  constructor
  · rintro ⟨before', last', same, closing, quiet⟩
    obtain ⟨rfl, rfl⟩ := List.append_singleton_inj.mp same
    exact ⟨closing, quiet⟩
  · rintro ⟨closing, quiet⟩
    exact ⟨before, last, rfl, closing, quiet⟩

lemma closedOnce_count (once : ClosedOnce events) : events.countP Event.closing = 1 := by
  obtain ⟨before, last, rfl, closing, quiet⟩ := once
  have none : before.countP Event.closing = 0 := by
    rw [List.countP_eq_zero]
    intro e member
    simp [quiet e member]
  simp [List.countP_append, closing, none]

/-! ## The parts of a statement -/

lemma jitPart_line (contains : containExpr st.text = true) : Line (jitPart pf st) ↔ ClosedOnce st.events := by
  obtain ⟨text, events, finish⟩ := st
  have count : (events.flatMap (jitEvent pf true)).count newline = events.countP Event.closing :=
    count_newlines fun e => (jitEvent_cases pf true e).imp_left fun ⟨quiet, plain, _⟩ => ⟨quiet, plain⟩
  simp only at contains
  rw [jitPart, contains, line_iff, count]
  induction events using List.reverseRecOn with
  | nil => simp [ClosedOnce]
  | append_singleton before last _ =>
    rw [closedOnce_concat, List.flatMap_append, List.flatMap_singleton, List.countP_append]
    obtain ⟨quiet, plain, some⟩ | ⟨closing, line⟩ := jitEvent_cases pf true last
    · -- the piece of an expression does not end in a newline
      have differ : (before.flatMap (jitEvent pf true) ++ jitEvent pf true last).getLast? ≠ Option.some newline := by
        rw [if_pos rfl] at some
        rw [List.getLast?_append_of_ne_nil _ some]
        exact fun same => plain (List.mem_of_getLast? same)
      exact ⟨fun line => absurd line.2 differ, fun once => by simp [quiet] at once⟩
    · simp [line.getLast?_append, closing, List.countP_eq_zero]

lemma timeEvents_end (events : List (Event D)) :
    (events.countP Event.closing = 0 ∧ events.flatMap (timeEvent pf) = []) ∨
      (events.flatMap (timeEvent pf)).getLast? = some newline := by
  induction events using List.reverseRecOn with
  | nil => exact .inl ⟨rfl, rfl⟩
  | append_singleton before last ih =>
    rw [List.flatMap_append, List.flatMap_singleton, List.countP_append]
    obtain ⟨quiet, nothing⟩ | ⟨-, line⟩ := timeEvent_cases pf last
    · rw [nothing, List.append_nil]
      exact ih.imp_left fun ⟨zero, empty⟩ => ⟨by simp [zero, quiet], empty⟩
    · exact .inr (line.getLast?_append _)

lemma timePart_line (contains : containExpr st.text = true) : Line (timePart pf db st) ↔
      (newline ∉ st.text ∧ newline ∉ db) ∧ st.events.countP Event.closing = 1 := by
  have count : (st.events.flatMap (timeEvent pf)).count newline = st.events.countP Event.closing :=
    count_newlines fun e => (timeEvent_cases pf e).imp_left fun ⟨quiet, nothing⟩ => ⟨quiet, by simp [nothing]⟩
  have comma : [','].count newline = 0 := by decide
  rw [timePart, if_pos contains, line_iff, List.count_append, List.count_append, count, comma,
    ← header_plain db st, ← List.count_eq_zero]
  obtain ⟨none, empty⟩ | ends := timeEvents_end pf st.events
  · have last : (header db st ++ [','] ++ []).getLast? = some ',' := by simp
    have differ : some ',' ≠ some newline := by decide
    rw [empty, none, last]
    exact ⟨fun line => absurd line.2 differ, fun once => absurd once.2 (by decide)⟩
  · have some : st.events.flatMap (timeEvent pf) ≠ [] := by
      rintro empty
      simp [empty] at ends
    have closing : st.events.countP Event.closing ≠ 0 := by
      rw [← count, ne_eq, List.count_eq_zero]
      exact fun plain => plain (List.mem_of_getLast? ends)
    rw [List.getLast?_append_of_ne_nil _ some, ends]
    constructor
    · rintro ⟨once, -⟩
      omega
    · rintro ⟨plain, once⟩
      exact ⟨by omega, rfl⟩

lemma reportPart_line (contains : containExpr st.text = true) :
    Line (reportPart pf db st) ↔ (newline ∉ st.text ∧ newline ∉ db) ∧ st.finish.isSome = true := by
  cases finish : st.finish with
  | none => simp [reportPart, finish, line_iff]
  | some s =>
    have comma : newline ≠ ',' := by decide
    have exprs : newline ∉ (s.currentSQLExprs.filter fun info => info.expressionId ≠ 0).flatMap
        (fun info => ',' :: fields (exprFields pf s info)) := by
      rw [List.mem_flatMap]
      rintro ⟨info, -, member⟩
      obtain here | there := List.mem_cons.mp member
      · exact comma here
      · exact fields_plain (exprFields_plain pf s info) there
    rw [reportPart, finish]
    simp only [contains, if_true, Option.isSome_some, and_true]
    rw [← header_plain db st, line_iff, List.count_append, List.count_append,
      List.count_eq_zero.mpr exprs]
    simp [List.count_eq_zero]

lemma operatorPart_block (contains : containExpr st.text = true) :
    Block (operatorPart pf st) ↔ ∃ s, st.finish = some s ∧ s.currentSQLOpts ≠ [] := by
  cases finish : st.finish with
  | none => simp [operatorPart, finish, Block]
  | some s =>
    have rows : ∀ row ∈ s.currentSQLOpts.map (operatorLine pf s.currentSQLOpts),
        row ≠ [] ∧ newline ∉ row := by
      intro row member
      obtain ⟨r, -, rfl⟩ := List.mem_map.mp member
      exact operatorLine_plain pf s.currentSQLOpts r
    simp only [operatorPart, finish, contains, if_true, Option.some.injEq, exists_eq_left']
    constructor
    · rintro ⟨lines, some, -, written⟩ empty
      obtain ⟨line, rest, rfl⟩ := List.exists_cons_of_ne_nil some
      have same := List.append_cancel_right written
      rw [empty] at same
      simp [fileOf] at same
    · intro some
      exact ⟨_, by simpa using some, rows, rfl⟩

lemma parts_without (without : containExpr st.text = false) :
    timePart pf db st = [] ∧ reportPart pf db st = [] ∧ operatorPart pf st = [] ∧
      (jitPart pf st = [] ↔ ∀ e ∈ st.events, e.closing = false) := by
  refine ⟨?_, ?_, ?_, ?_⟩
  · simp only [timePart, without, Bool.false_eq_true, if_false]
  · cases finish : st.finish <;>
      simp only [reportPart, finish, without, Bool.false_eq_true, if_false]
  · cases finish : st.finish <;>
      simp only [operatorPart, finish, without, Bool.false_eq_true, if_false]
  · rw [jitPart, without, List.flatMap_eq_nil_iff]
    refine forall₂_congr fun e member => ?_
    obtain ⟨quiet, -, nothing⟩ | ⟨closing, line⟩ := jitEvent_cases pf false e
    · rw [if_neg Bool.false_ne_true] at nothing
      simp only [quiet, nothing]
    · obtain ⟨line, -, eq⟩ := line
      simp [closing, eq]

/-- A file has a record of each statement with expressions just when each of them
appends one, and the others nothing. -/
lemma oneEach_parts (Record : Text → Prop) (part : Statement D → Text) (stmts : List (Statement D)) :
    OneEach Record (fileFrom 0 (stmts.map part)) (owners stmts) ↔
      ∀ st ∈ stmts, if containExpr st.text = true then Record (part st) else part st = [] := by
  have iff := oneEach_iff Record 0 (stmts.map fun st => (containExpr st.text, part st))
  simpa [owners, Function.comp_def] using iff

/-- **The files are aligned just when every statement is regular.** -/
theorem aligned_iff (stmts : List (Statement D)) : Aligned pf db stmts ↔ ∀ st ∈ stmts, Regular db st := by
  have files : Aligned pf db stmts ↔ ∀ st ∈ stmts,
      (if containExpr st.text = true then Line (timePart pf db st) else timePart pf db st = []) ∧
      (if containExpr st.text = true then Line (jitPart pf st) else jitPart pf st = []) ∧
      (if containExpr st.text = true then Line (reportPart pf db st) else reportPart pf db st = []) ∧
      (if containExpr st.text = true then Block (operatorPart pf st) else operatorPart pf st = []) := by
    simp only [forall_and, ← oneEach_parts]
    exact ⟨fun h => ⟨h.time, h.jit, h.report, h.operator⟩, fun ⟨a, b, c, d⟩ => ⟨a, b, c, d⟩⟩
  rw [files]
  refine forall₂_congr fun st _ => ?_
  cases contains : containExpr st.text with
  | true =>
    simp only [if_true, Regular, contains, timePart_line pf db contains, jitPart_line pf contains,
      reportPart_line pf db contains, operatorPart_block pf contains]
    constructor
    · rintro ⟨⟨⟨text, name⟩, -⟩, once, -, operators⟩
      exact ⟨text, name, once, operators⟩
    · rintro ⟨text, name, once, s, finish, some⟩
      exact ⟨⟨⟨text, name⟩, closedOnce_count once⟩, once, ⟨⟨text, name⟩, by simp [finish]⟩,
        s, finish, some⟩
  | false =>
    obtain ⟨time, report, operator, jit⟩ := parts_without pf db contains
    simp [Regular, contains, time, report, operator, jit]

/-- A statement with expressions that ends no line leaves one of time.csv open. -/
lemma unended_unaligned (contains : containExpr st.text = true)
    (open_ : st.events.countP Event.closing = 0) : ¬ Aligned pf db [st] := by
  intro aligned
  have line := (oneEach_parts Line (timePart pf db) [st]).mp aligned.time st List.mem_cons_self
  rw [if_pos contains, timePart_line pf db contains, open_] at line
  exact absurd line.2 (by decide)

end Files

/-- The line of time.csv of a statement that is not explained has no end. -/
theorem plainSelect_unaligned : ¬ Aligned ⟨printInt, printInt, printInt_plain, printInt_plain⟩ ['d']
      [⟨"SELECT 1".toList, [], some (start (ExprTable.initial fun _ _ => 0))⟩] := by
  have contains : containExpr "SELECT 1".toList = true := by decide
  exact unended_unaligned _ _ contains rfl

end Hex.Kernel.DataFiles
