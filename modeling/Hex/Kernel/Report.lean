/-
# Kernel.Report — what a statement writes about its operators and expressions

At its end a statement with expressions appends its records to operator.csv, a row
for each with the fields of its two children, and its entries of `currentSQLExprs`
to report.csv, each with the fields of its operator (`exec_simple_query`,
tcop/postgres.c). Both follow pointers into `currentSQLOpts`; where one does not lead
to a record, what is written is `none`.

A row is here what is read back from it. `Reading` says what comes back of a double:
any function of its value.

At the end of every statement the pointers lead to records
(`pointing_execSimpleQuery`), so that both files are written, and every operator they
name is a row of the block (`written_closed`).
-/
import Hex.Kernel.Session
import Hex.Theory.FallibleLoop

namespace Hex.Kernel.Report

open ExprTable PlanRecords Session Theory.FallibleLoop
open JitRouting (Operator)

/-- The four fields that stand for an operator. -/
structure OpKey (F : Type) where
  id : Int
  type : String
  startupCost : F
  totalCost : F
  deriving DecidableEq, Repr

structure OpRow (F : Type) where
  key : OpKey F
  inputRows : Int
  outputRows : Int
  filteredRows : Int
  startupTime : F
  totalTime : F
  left : OpKey F
  right : OpKey F
  deriving DecidableEq, Repr

structure ReportExpr (F : Type) where
  exprId : Int
  count : Int
  op : OpKey F
  deriving DecidableEq, Repr

/-- What is read back of a double: `decimal` when it was written with `%.6lf`,
`rounded` when it was written with `%.0lf`. -/
structure Reading (D F : Type) where
  decimal : D → F
  rounded : D → Int

section Report

variable {D F : Type} [Zero F] {s s' : State D} {mem : Memory D} {expressionId : Nat}

def OpKey.invalid : OpKey F := ⟨0, "T_Invalid", 0, 0⟩

def Reading.key (read : Reading D F) (r : OperatorInfo D) : OpKey F :=
  ⟨r.optId, getNodeTagName r.type, read.decimal r.startupCost, read.decimal r.totalCost⟩

def childKey (read : Reading D F) (recs : List (OperatorInfo D)) : Option Nat → Option (OpKey F)
  | none => some .invalid
  | some i => recs[i]?.map read.key

def operatorRow (read : Reading D F) (recs : List (OperatorInfo D)) (r : OperatorInfo D) :
    Option (OpRow F) :=
  match childKey read recs r.left, childKey read recs r.right with
  | some left, some right =>
    some
      { key := read.key r
        inputRows := read.rounded r.actualInputRows
        outputRows := read.rounded r.actualOutputRows
        filteredRows := read.rounded r.filteredRows
        startupTime := read.decimal r.actualStartupTime
        totalTime := read.decimal r.actualTotalTime
        left := left
        right := right }
  | _, _ => none

def operatorBlock (read : Reading D F) (s : State D) : Option (List (OpRow F)) :=
  s.currentSQLOpts.mapM (operatorRow read s.currentSQLOpts)

def exprKey (read : Reading D F) (s : State D) : Option OpPtr → Option (OpKey F)
  | none => some .invalid
  | some p => if p.block = s.block then s.currentSQLOpts[p.index]?.map read.key else none

def reportExpr (read : Reading D F) (s : State D) (info : ExprInfo) : Option (ReportExpr F) :=
  (exprKey read s info.op).map fun op => ⟨info.expressionId, info.count, op⟩

/-- What a statement appends to report.csv behind its text and its database. -/
def reportLine (read : Reading D F) (s : State D) : Option (List (ReportExpr F)) :=
  (s.currentSQLExprs.filter fun info => info.expressionId ≠ 0).mapM (reportExpr read s)

/-- A pointer that is not NULL leads to a record. -/
def Points (s : State D) (op : Option OpPtr) : Prop :=
  ∀ p, op = some p → p.block = s.block ∧ p.index < s.currentSQLOpts.length

/-- The records fit, and their pointers lead to records. -/
structure Sound (recs : List (OperatorInfo D)) : Prop where
  fits : recs.length ≤ optListSize
  linked : Linked recs

/-- What the events of a statement can do: records are appended, or measured, and a
new pointer in a registry leads to a record. -/
structure Keeps (s s' : State D) : Prop where
  block : s'.block = s.block
  length : s.currentSQLOpts.length ≤ s'.currentSQLOpts.length
  sound : Sound s.currentSQLOpts → Sound s'.currentSQLOpts
  infos : ∀ info ∈ s'.currentSQLExprs,
    (∃ old ∈ s.currentSQLExprs, info.op = old.op) ∨ Points s' info.op
  slots : ∀ slot ∈ s'.currentExprList,
    (∃ old ∈ s.currentExprList, slot.op = old.op) ∨ Points s' slot.op

lemma Keeps.points {s s' : State D} (keeps : Keeps s s') {op : Option OpPtr} (points : Points s op) :
    Points s' op := by
  intro p here
  obtain ⟨block, inside⟩ := points p here
  exact ⟨block.trans keeps.block.symm, lt_of_lt_of_le inside keeps.length⟩

/-- Nothing changes but fields that hold no pointer. -/
lemma Keeps.of_eq (block : s'.block = s.block) (records : s'.currentSQLOpts = s.currentSQLOpts)
    (infos : s'.currentSQLExprs = s.currentSQLExprs) (slots : s'.currentExprList = s.currentExprList) : Keeps s s' where
  block := block
  length := by rw [records]
  sound := by rw [records]; exact id
  infos := fun info member => .inl ⟨info, infos ▸ member, rfl⟩
  slots := fun slot member => .inl ⟨slot, slots ▸ member, rfl⟩

lemma Keeps.trans {s'' : State D} (first : Keeps s s') (second : Keeps s' s'') : Keeps s s'' where
  block := second.block.trans first.block
  length := first.length.trans second.length
  sound := second.sound ∘ first.sound
  infos := by
    intro info member
    obtain ⟨old, inside, same⟩ | new := second.infos info member
    · obtain ⟨older, there, eq⟩ | points := first.infos old inside
      · exact .inl ⟨older, there, same.trans eq⟩
      · exact .inr (same ▸ second.points points)
    · exact .inr new
  slots := by
    intro slot member
    obtain ⟨old, inside, same⟩ | new := second.slots slot member
    · obtain ⟨older, there, eq⟩ | points := first.slots old inside
      · exact .inl ⟨older, there, same.trans eq⟩
      · exact .inr (same ▸ second.points points)
    · exact .inr new

section Runs

variable [DecidableEq D]

lemma points_findOperatorInfo (s : State D) (key : Operator D) : Points s (findOperatorInfo s key) := by
  intro p found
  obtain ⟨none, -⟩ | ⟨i, r, here, inside, -⟩ := findOperatorInfo_cases s key
  · rw [none] at found
    cases found
  · rw [here] at found
    cases found
    exact ⟨rfl, (List.getElem?_eq_some_iff.mp inside).1⟩

lemma keeps_recordInfo {steps : List Int} {key : Operator D}
    (entered : recordInfo mem s expressionId steps key = some s') : Keeps s s' := by
  simp only [recordInfo] at entered
  split_ifs at entered with hit room
  · cases entered
    exact .of_eq rfl rfl rfl rfl
  · cases entered
    refine ⟨rfl, le_refl _, id, fun info member => ?_, fun slot member => .inl ⟨slot, member, rfl⟩⟩
    obtain old | new := List.mem_append.mp member
    · exact .inl ⟨info, old, rfl⟩
    · rw [List.mem_singleton.mp new]
      exact .inr (points_findOperatorInfo s key)

lemma keeps_takeSlot {steps : List Int} {key : Operator D} {result : State D × Nat}
    (taken : takeSlot mem s expressionId steps key = some result) : Keeps s result.1 := by
  simp only [takeSlot] at taken
  split at taken
  · cases taken
    exact .of_eq rfl rfl rfl rfl
  · split_ifs at taken
    cases taken
    refine ⟨rfl, le_refl _, id, fun info member => .inl ⟨info, member, rfl⟩, fun slot member => ?_⟩
    obtain old | new := List.mem_append.mp member
    · exact .inl ⟨slot, old, rfl⟩
    · rw [List.mem_singleton.mp new]
      exact .inr (points_findOperatorInfo s key)

lemma keeps_jitCompileExpr {plan : Option (PlanNode D)} {steps : List Int} {result : State D × Option Nat}
    (compiled : jitCompileExpr mem s plan steps = some result) : Keeps s result.1 := by
  simp only [jitCompileExpr] at compiled
  split at compiled
  · cases compiled
  · rename_i table entry added
    have ticked : Keeps s { s with table := table, tick := s.tick + 1 } := .of_eq rfl rfl rfl rfl
    split at compiled
    · obtain ⟨taken, slot, rfl⟩ := Option.map_eq_some_iff.mp compiled
      simp only [slotFor] at slot
      split at slot
      · cases slot
      · rename_i entered
        exact (ticked.trans (keeps_recordInfo entered)).trans (keeps_takeSlot slot)
    · cases compiled
      exact ticked

variable [Zero D]

omit [DecidableEq D] in
/-- Planning appends records; it stays inside the array from records that fit. -/
lemma sound_planQuery {stmt : PlannedStmt D} {recs recs' : List (OperatorInfo D)}
    (sound : Sound recs) (planned : planQuery stmt recs = some recs') : Sound recs' ∧ recs.length ≤ recs'.length := by
  rw [planQuery_eq stmt sound.fits] at planned
  split_ifs at planned with fits
  cases planned
  refine ⟨⟨?_, sound.linked.forest stmt.trees⟩, by simp⟩
  rw [List.length_append, length_forest]
  exact fits

lemma keeps_step {e : Event D} {result : State D × List (Option Nat)} (sound : Sound s.currentSQLOpts)
    (stepped : step mem s e = some result) : Keeps s result.1 := by
  cases e with
  | planned stmt =>
    obtain ⟨recs, planned, rfl⟩ := Option.map_eq_some_iff.mp stepped
    obtain ⟨sound', longer⟩ := sound_planQuery sound planned
    exact ⟨rfl, longer, fun _ => sound', fun info member => .inl ⟨info, member, rfl⟩,
      fun slot member => .inl ⟨slot, member, rfl⟩⟩
  | handed plan steps =>
    obtain ⟨taken, compiled, rfl⟩ := Option.map_eq_some_iff.mp stepped
    exact keeps_jitCompileExpr compiled
  | counted counts =>
    cases stepped
    refine ⟨rfl, le_refl _, id, fun info member => ?_, fun slot member => .inl ⟨slot, member, rfl⟩⟩
    obtain ⟨i, inside⟩ := List.mem_iff_getElem?.mp member
    rw [List.getElem?_mapIdx] at inside
    obtain ⟨old, found, rfl⟩ := Option.map_eq_some_iff.mp inside
    exact .inl ⟨old, List.mem_of_getElem? found, rfl⟩
  | measured node outputRows filteredRows startupTime totalTime =>
    cases stepped
    dsimp only
    split
    · exact .of_eq rfl rfl rfl rfl
    · refine ⟨rfl, ?_, fun sound => ⟨?_, sound.linked.modify _ (fun _ => rfl) (fun _ => rfl)⟩,
        fun info member => .inl ⟨info, member, rfl⟩, fun slot member => .inl ⟨slot, member, rfl⟩⟩
      · rw [List.length_modify]
      · rw [List.length_modify]
        exact sound.fits

lemma keeps_run {events : List (Event D)} {result : State D × List (Option Nat)} (sound : Sound s.currentSQLOpts)
    (ran : run mem s events = some result) : Keeps s result.1 := by
  induction events generalizing s result with
  | nil =>
    cases ran
    exact .of_eq rfl rfl rfl rfl
  | cons e rest ih =>
    simp only [run] at ran
    split at ran
    · cases ran
    · rename_i stepped
      split at ran
      · cases ran
      · rename_i later
        cases ran
        have first := keeps_step sound stepped
        have tail := ih (first.sound sound) later
        exact first.trans tail

/-- The pointers of the records and of the entries lead to records. -/
structure Pointing (s : State D) : Prop where
  sound : Sound s.currentSQLOpts
  infos : ∀ info ∈ s.currentSQLExprs, Points s info.op

/-- **At the end of a statement with expressions the pointers lead to its records**,
whatever the backend did before; those of the slots do when the text was new. -/
theorem pointing_execSimpleQuery {q : Query D}
    {result : State D × List (Option Nat)} (contains : containExpr q.text = true)
    (ran : execSimpleQuery mem s q = some result) :
    Pointing result.1 ∧ (isRepetition s.currentStatement q.text = false →
      ∀ slot ∈ result.1.currentExprList, Points result.1 slot.op) := by
  rw [execSimpleQuery, if_pos contains] at ran
  have empty : Sound (beginQuery s q.text).currentSQLOpts := by
    constructor <;> simp [beginQuery, contains, Linked]
  have keeps := keeps_run empty ran
  refine ⟨⟨keeps.sound empty, fun info member => ?_⟩, fun new slot member => ?_⟩
  · obtain ⟨old, inside, -⟩ | points := keeps.infos info member
    · simp [beginQuery] at inside
    · exact points
  · obtain ⟨old, inside, -⟩ | points := keeps.slots slot member
    · simp [beginQuery, new] at inside
    · exact points

end Runs

/-! ## What is written -/

/-- What a statement may write of an operator: the key of a record, or the invalid one. -/
def Named (read : Reading D F) (recs : List (OperatorInfo D)) (key : OpKey F) : Prop :=
  key = .invalid ∨ ∃ r ∈ recs, key = read.key r

lemma childKey_named (read : Reading D F) {recs : List (OperatorInfo D)} {child : Option Nat}
    (inside : ∀ k, child = some k → k < recs.length) :
    ∃ key, childKey read recs child = some key ∧ Named read recs key := by
  cases child with
  | none => exact ⟨.invalid, rfl, .inl rfl⟩
  | some k =>
    have bound := inside k rfl
    refine ⟨read.key recs[k], ?_, .inr ⟨recs[k], List.getElem_mem bound, rfl⟩⟩
    simp [childKey, List.getElem?_eq_getElem bound]

lemma operatorRow_named (read : Reading D F) {recs : List (OperatorInfo D)}
    (linked : Linked recs) {r : OperatorInfo D} (member : r ∈ recs) :
    ∃ row, operatorRow read recs r = some row ∧ row.key = read.key r ∧
      Named read recs row.left ∧ Named read recs row.right := by
  obtain ⟨left, leftKey, leftNamed⟩ := childKey_named read fun k points =>
    linked r member k (.inl points)
  obtain ⟨right, rightKey, rightNamed⟩ := childKey_named read fun k points =>
    linked r member k (.inr points)
  refine ⟨_, by simp only [operatorRow, leftKey, rightKey]; rfl, rfl, leftNamed, rightNamed⟩

lemma exprKey_named (read : Reading D F) {s : State D} {op : Option OpPtr} (points : Points s op) :
    ∃ key, exprKey read s op = some key ∧ Named read s.currentSQLOpts key := by
  cases op with
  | none => exact ⟨.invalid, rfl, .inl rfl⟩
  | some p =>
    obtain ⟨block, inside⟩ := points p rfl
    refine ⟨read.key s.currentSQLOpts[p.index], ?_, .inr ⟨_, List.getElem_mem inside, rfl⟩⟩
    simp [exprKey, block, List.getElem?_eq_getElem inside]

lemma reportExpr_named (read : Reading D F) {s : State D} (pointing : Pointing s)
    {info : ExprInfo} (member : info ∈ s.currentSQLExprs) :
    ∃ e, reportExpr read s info = some e ∧ Named read s.currentSQLOpts e.op := by
  obtain ⟨key, named, spec⟩ := exprKey_named read (pointing.infos info member)
  exact ⟨⟨info.expressionId, info.count, key⟩, by simp [reportExpr, named], spec⟩

/-- **A statement whose pointers lead to records writes both files**: every operator
named in them is none, or has a row in the block. -/
theorem written_closed (read : Reading D F) (pointing : Pointing s) :
    ∃ rows report, operatorBlock read s = some rows ∧ reportLine read s = some report ∧
      (∀ row ∈ rows, ∃ r ∈ s.currentSQLOpts, row.key = read.key r) ∧
      (∀ row ∈ rows, ∀ key, key = row.left ∨ key = row.right → key = .invalid ∨ key ∈ rows.map OpRow.key) ∧
      ∀ e ∈ report, e.op = .invalid ∨ e.op ∈ rows.map OpRow.key := by
  obtain ⟨rows, block⟩ := exists_mapM fun r member =>
    (operatorRow_named read pointing.sound.linked member).imp fun _ spec => spec.1
  obtain ⟨report, line⟩ := exists_mapM fun info member =>
    (reportExpr_named read pointing (List.mem_of_mem_filter member)).imp fun _ spec => spec.1
  -- a key a pointer leads to is the key of the row of its record
  have listed : ∀ key, Named read s.currentSQLOpts key → key = OpKey.invalid ∨ key ∈ rows.map OpRow.key := by
    rintro key (invalid | ⟨r, member, rfl⟩)
    · exact .inl invalid
    · obtain ⟨row, made, same, -, -⟩ := operatorRow_named read pointing.sound.linked member
      exact .inr (List.mem_map.mpr ⟨row, (mem_of_mapM block row).mpr ⟨r, member, made⟩, same⟩)
  refine ⟨rows, report, block, line, fun row written => ?_, fun row written key child => ?_,
    fun e written => ?_⟩
  · obtain ⟨r, member, made⟩ := (mem_of_mapM block row).mp written
    obtain ⟨row', made', same, -, -⟩ := operatorRow_named read pointing.sound.linked member
    obtain rfl : row = row' := Option.some.inj (made.symm.trans made')
    exact ⟨r, member, same⟩
  · obtain ⟨r, member, made⟩ := (mem_of_mapM block row).mp written
    obtain ⟨row', made', -, left, right⟩ := operatorRow_named read pointing.sound.linked member
    obtain rfl : row = row' := Option.some.inj (made.symm.trans made')
    obtain rfl | rfl := child
    · exact listed _ left
    · exact listed _ right
  · obtain ⟨info, member, made⟩ := (mem_of_mapM line e).mp written
    obtain ⟨e', made', named⟩ := reportExpr_named read pointing (List.mem_of_mem_filter member)
    obtain rfl : e = e' := Option.some.inj (made.symm.trans made')
    exact listed _ named

end Report

end Hex.Kernel.Report
