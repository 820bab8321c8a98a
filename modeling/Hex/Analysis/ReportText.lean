/-
# Analysis.ReportText — a line of report.csv, read back

The server writes a statement to report.csv in quotes, but does not double the quotes in it, and the
analysis scripts read the file with `csv.reader`. `reportPart_csv_iff` says when they get the
statement, the database and the values of the expressions back. The values are those of
`Kernel.Report` (`fields_written`).
-/
import Hex.Kernel.DataFiles
import Hex.Kernel.Report
import Hex.Theory.Csv

namespace Hex.Analysis.ReportText

open Kernel.PlanRecords Kernel.Session Kernel.DataFiles
open Theory.CText Theory.Csv

section Line

variable {D : Type} (pf : Printf D)

/-- What the line of a statement consists of: the statement, the database, and six values for each
expression. -/
def reportRow (db : Text) (st : Statement D) (s : State D) : List Text :=
  st.text :: db :: (s.currentSQLExprs.filter fun info => info.expressionId ≠ 0).flatMap (exprFields pf s)

/-- A field that can stand in a line without quotes. -/
def Bare (t : Text) : Prop := ∀ c ∈ t, c ≠ ',' ∧ c ≠ '"' ∧ c ≠ newline

instance (t : Text) : Decidable (Bare t) := List.decidableBAll _ t

lemma printInt_bare (z : Int) : Bare (printInt z) := by
  have digits : Bare (decimal z.natAbs) := by
    intro c member
    have digit := isDigit_of_mem_decimal member
    refine ⟨?_, ?_, ?_⟩ <;> rintro rfl <;> cases digit
  rw [printInt]
  split_ifs
  · exact List.forall_mem_cons.mpr ⟨by decide, digits⟩
  · exact digits

lemma tagName_bare (tag : PlanTag) : Bare (getNodeTagName tag).toList := by
  cases tag <;> decide

lemma exprFields_bare (decimal : ∀ d, Bare (pf.decimal d)) (s : State D) (info : ExprInfo) :
    ∀ t ∈ exprFields pf s info, Bare t := by
  have key (r : OperatorInfo D) : ∀ t ∈ keyFields pf r, Bare t := by
    simp only [keyFields, List.forall_mem_cons]
    exact ⟨printInt_bare _, tagName_bare _, decimal _, decimal _, List.forall_mem_nil _⟩
  rw [exprFields, List.forall_mem_cons, List.forall_mem_cons]
  refine ⟨printInt_bare _, printInt_bare _, ?_⟩
  cases info.op with
  | none =>
    have invalid : ∀ t ∈ invalidFields, Bare t := by decide
    exact invalid
  | some p =>
    dsimp only
    cases s.currentSQLOpts[p.index]? with
    | none => exact List.forall_mem_nil _
    | some r => exact key r

lemma cons_fields (ts : List Text) (some : ts ≠ []) : ',' :: fields ts = ts.flatMap (',' :: ·) := by
  induction ts with
  | nil => cases some rfl
  | cons t ts ih =>
    cases ts with
    | nil => simp [fields]
    | cons next ts =>
      rw [List.flatMap_cons, ← ih (by simp)]
      simp [fields, List.intercalate_cons_cons]

/-- **When a statement, its database and the values of its expressions are read back**: if the
statement has no quote, and no field has a carriage return or is longer than the reader allows. -/
theorem reportPart_csv_iff (decimal : ∀ d, Bare (pf.decimal d)) (db : Text) (name : Bare db) (st : Statement D)
    (s : State D) (contains : containExpr st.text = true) (finish : st.finish = some s) :
    csvReader (reportPart pf db st) = some [reportRow pf db st s] ↔
      '"' ∉ st.text ∧ ∀ field ∈ reportRow pf db st s, '\r' ∉ field ∧ field.length ≤ Reader.fieldLimit := by
  obtain ⟨values, eq⟩ : ∃ values, values =
      (s.currentSQLExprs.filter fun info => info.expressionId ≠ 0).flatMap (exprFields pf s) := ⟨_, rfl⟩
  have bare : ∀ w ∈ db :: values, Bare w := by
    refine List.forall_mem_cons.mpr ⟨name, fun w member => ?_⟩
    obtain ⟨info, _, inside⟩ := List.mem_flatMap.mp (eq ▸ member)
    exact exprFields_bare pf decimal s info w inside
  have line : reportPart pf db st = '"' :: (st.text ++ '"' :: ((db :: values).flatMap (',' :: ·) ++ [newline])) := by
    simp only [reportPart, finish, contains, if_true, header, eq, List.flatMap_cons, List.flatMap_assoc,
      cons_fields (exprFields pf s _) (List.cons_ne_nil _ _)]
    simp
  rw [line, reportRow, ← eq]
  exact csvReader_row_iff bare

end Line

section Values

open Kernel.Report

variable {D : Type} [Zero Text] (pf : Printf D) (read : Reading D Text)

/-- The fields of an operator, with the texts of its costs. -/
def OpKey.texts (key : OpKey Text) : List Text :=
  [printInt key.id, key.type.toList, key.startupCost, key.totalCost]

/-- **The fields of an expression and of an operator are those that `Report` has**, with the texts of the
numbers. -/
theorem fields_written (zero : (0 : Text) = "0.0".toList) (decimal : ∀ d, read.decimal d = pf.decimal d)
    (rounded : ∀ d, printInt (read.rounded d) = pf.rounded d) :
    (∀ (s : State D) info e, reportExpr read s info = some e →
      exprFields pf s info = printInt e.exprId :: printInt e.count :: OpKey.texts e.op) ∧
    ∀ recs (r : OperatorInfo D) row, operatorRow read recs r = some row →
      operatorFields pf recs r = OpKey.texts row.key ++ [printInt row.inputRows, printInt row.outputRows,
        printInt row.filteredRows, row.startupTime, row.totalTime] ++ OpKey.texts row.left ++ OpKey.texts row.right := by
  have key (r : OperatorInfo D) : keyFields pf r = OpKey.texts (read.key r) := by
    simp [keyFields, OpKey.texts, Reading.key, decimal]
  have invalid : invalidFields = OpKey.texts .invalid := by
    simp only [OpKey.texts, OpKey.invalid, zero]
    decide
  have child (recs : List (OperatorInfo D)) (c : Option Nat) (k : OpKey Text)
      (named : childKey read recs c = some k) : childFields pf recs c = OpKey.texts k := by
    cases c with
    | none =>
      cases named
      exact invalid
    | some i =>
      obtain ⟨r, at', rfl⟩ := Option.map_eq_some_iff.mp named
      simp [childFields, at', key]
  refine ⟨fun s info e written => ?_, fun recs r row written => ?_⟩
  · obtain ⟨k, named, rfl⟩ := Option.map_eq_some_iff.mp written
    cases pointer : info.op with
    | none =>
      rw [pointer] at named
      cases named
      simp [exprFields, pointer, invalid]
    | some p =>
      rw [pointer, exprKey] at named
      split_ifs at named
      obtain ⟨r, at', rfl⟩ := Option.map_eq_some_iff.mp named
      simp [exprFields, pointer, at', key]
  · unfold operatorRow at written
    split at written
    · rename_i left right
      cases written
      simp [operatorFields, key, child _ _ _ left, child _ _ _ right, rounded, decimal]
    · cases written

end Values

/-! ## Two statements -/

def wholeNumbers : Printf Int := ⟨printInt, printInt, printInt_plain, printInt_plain⟩

/-- A statement without expressions in its plan. -/
def bareStatement (text : String) : Statement Int :=
  ⟨text.toList, [], some (start (Kernel.ExprTable.initial fun _ _ => 0))⟩

/-- A scan with a filter that was evaluated five times. -/
def filteredScan : Statement Int :=
  ⟨"SELECT a,\nb FROM t".toList, [], some { start (D := Int) (Kernel.ExprTable.initial fun _ _ => 0) with
    currentSQLOpts := [⟨3, .seqScan, 0, 20, 0, 2, 3, 0, 0, none, none⟩]
    currentSQLExprs := [⟨7, some ⟨0, 0⟩, 5, 0, [1]⟩] }⟩

theorem filteredScan_csv : csvReader (reportPart wholeNumbers ['d'] filteredScan) =
    some [["SELECT a,\nb FROM t", "d", "7", "5", "3", "T_SeqScan", "0", "20"].map String.toList] :=
  (reportPart_csv_iff wholeNumbers printInt_bare ['d'] (by decide) filteredScan _ (by decide) rfl).mpr (by decide)

/-- The quotes of a name are taken for those around the statement. -/
theorem quotedName_csv : csvReader (reportPart wholeNumbers ['d'] (bareStatement "SELECT \"a\" FROM t")) =
    some ["SELECT a\" FROM t\"".toList :: [['d']]] := by
  decide +kernel

end Hex.Analysis.ReportText
