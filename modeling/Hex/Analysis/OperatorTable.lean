/-
# Analysis.OperatorTable — the operators of a statement, as the scripts look them up

The three analysis scripts `analyzeData_Opt+Expr(Level).py`, `(Count).py` and
`(Time).py` put the rows of a statement into the dictionary `current_opts`, under the
four fields of their operators, behind a row for the invalid operator. The scripts
for the level and the count look up the operator of each expression and its
children; the one for the time looks up the children of each row. A key that is not
there is a `KeyError`, here `none`.

`currentOpts_keys` says which keys the dictionary has. What the server writes of one
statement names no others (`lookups_succeed`).
-/
import Hex.Kernel.Report
import Hex.Theory.WriteLog

namespace Hex.Analysis.OperatorTable

open Kernel.ExprTable (initial)
open Kernel.PlanRecords Kernel.Session Kernel.Report Theory.WriteLog

section OperatorTable

variable {F : Type} [Zero F]

def invalidRow : OpRow F where
  key := .invalid
  inputRows := 0
  outputRows := 0
  filteredRows := 0
  startupTime := 0
  totalTime := 0
  left := .invalid
  right := .invalid

/-- The rows a script found for an operator and its children. -/
structure Family (F : Type) where
  current : OpRow F
  left : OpRow F
  right : OpRow F
  deriving DecidableEq, Repr

variable [DecidableEq F]

def currentOpts (rows : List (OpRow F)) : Dict (OpKey F) (OpRow F) :=
  rows.foldl (fun opts row => opts.set row.key row) (Dict.empty.set .invalid invalidRow)

def childRows (opts : Dict (OpKey F) (OpRow F)) (left right : OpKey F) :
    Option (OpRow F × OpRow F) :=
  match opts.get? left, opts.get? right with
  | some left, some right => some (left, right)
  | _, _ => none

/-- The lookups for an expression, with the keys of the children passed through `child`. -/
def familyOf (child : OpKey F → OpKey F) (opts : Dict (OpKey F) (OpRow F)) (e : ReportExpr F) :
    Option (Family F) :=
  match opts.get? e.op with
  | none => none
  | some current =>
    (childRows opts (child current.left) (child current.right)).map fun rows =>
      ⟨current, rows.1, rows.2⟩

def levelLookup (opts : Dict (OpKey F) (OpRow F)) (e : ReportExpr F) : Option (Family F) :=
  familyOf id opts e

/-- The count script takes the costs of an invalid child for 0. -/
def countChild (key : OpKey F) : OpKey F :=
  if key.type = "T_Invalid" then { key with startupCost := 0, totalCost := 0 } else key

def countLookup (opts : Dict (OpKey F) (OpRow F)) (e : ReportExpr F) : Option (Family F) :=
  familyOf countChild opts e

def timeLookup (opts : Dict (OpKey F) (OpRow F)) (row : OpRow F) : Option (OpRow F × OpRow F) :=
  childRows opts row.left row.right

/-! ## The keys of the dictionary -/

lemma currentOpts_eq (rows : List (OpRow F)) :
    currentOpts rows = Dict.ofLog ((.invalid, invalidRow) :: rows.map fun row => (row.key, row)) := by
  rw [currentOpts, Dict.ofLog, List.foldl_cons, List.foldl_map]

lemma currentOpts_keys (rows : List (OpRow F)) (key : OpKey F) :
    key ∈ (currentOpts rows).keys ↔ key = .invalid ∨ key ∈ rows.map OpRow.key := by
  rw [currentOpts_eq, Dict.keys_ofLog, mem_firsts, List.map_cons, List.mem_cons, List.map_map]
  rfl

lemma currentOpts_get? {rows : List (OpRow F)} {key : OpKey F} {row : OpRow F}
    (found : (currentOpts rows).get? key = some row) : row.key = key ∧ (row = invalidRow ∨ row ∈ rows) := by
  rw [currentOpts_eq, Dict.get?_ofLog] at found
  obtain invalid | written := List.mem_cons.mp (latest_mem found)
  · cases invalid
    exact ⟨rfl, .inl rfl⟩
  · obtain ⟨row', inside, same⟩ := List.mem_map.mp written
    cases same
    exact ⟨rfl, .inr inside⟩

omit [Zero F] in
lemma childRows_isSome {opts : Dict (OpKey F) (OpRow F)} {left right : OpKey F}
    (inLeft : left ∈ opts.keys) (inRight : right ∈ opts.keys) : (childRows opts left right).isSome = true := by
  obtain ⟨leftRow, foundLeft⟩ := Dict.get?_of_mem inLeft
  obtain ⟨rightRow, foundRight⟩ := Dict.get?_of_mem inRight
  simp [childRows, foundLeft, foundRight]

/-! ## What the server writes -/

/-- The children of every row, and of the invalid one, are keys of the dictionary. -/
structure Closed (rows : List (OpRow F)) : Prop where
  children : ∀ row ∈ rows, ∀ key, key = row.left ∨ key = row.right → key ∈ (currentOpts rows).keys

lemma Closed.of_get? {rows : List (OpRow F)} (closed : Closed rows) {key : OpKey F}
    {row : OpRow F} (found : (currentOpts rows).get? key = some row) :
    row.left ∈ (currentOpts rows).keys ∧ row.right ∈ (currentOpts rows).keys := by
  obtain ⟨-, rfl | inside⟩ := currentOpts_get? found
  · exact ⟨(currentOpts_keys rows _).mpr (.inl rfl), (currentOpts_keys rows _).mpr (.inl rfl)⟩
  · exact ⟨closed.children row inside _ (.inl rfl), closed.children row inside _ (.inr rfl)⟩

lemma familyOf_isSome {rows : List (OpRow F)} (closed : Closed rows) {child : OpKey F → OpKey F}
    (same : ∀ key ∈ (currentOpts rows).keys, child key = key) {e : ReportExpr F}
    (inside : e.op ∈ (currentOpts rows).keys) : (familyOf child (currentOpts rows) e).isSome = true := by
  obtain ⟨current, found⟩ := Dict.get?_of_mem inside
  obtain ⟨left, right⟩ := closed.of_get? found
  simp only [familyOf, found, same _ left, same _ right, Option.isSome_map]
  exact childRows_isSome left right

end OperatorTable

lemma getNodeTagName_ne (tag : PlanTag) : getNodeTagName tag ≠ "T_Invalid" := by
  cases tag <;> decide

/-- **No lookup fails in what one statement wrote.** The operator of every expression
of its line and the children of every row of its block are keys of the dictionary, so
that the three scripts find all the rows they ask for. -/
theorem lookups_succeed {D F : Type} [DecidableEq D] [Zero D] [DecidableEq F] [Zero F]
    (read : Reading D F) (mem : Memory D) (s s' : State D) (q : Query D)
    (indices : List (Option Nat)) (contains : containExpr q.text = true)
    (ran : execSimpleQuery mem s q = some (s', indices)) :
    ∃ rows report, operatorBlock read s' = some rows ∧ reportLine read s' = some report ∧
      .invalid ∈ (currentOpts rows).keys ∧
      (∀ e ∈ report, e.op ∈ (currentOpts rows).keys ∧ (levelLookup (currentOpts rows) e).isSome = true ∧
        (countLookup (currentOpts rows) e).isSome = true) ∧
      ∀ row ∈ rows, row.left ∈ (currentOpts rows).keys ∧ row.right ∈ (currentOpts rows).keys ∧
        (timeLookup (currentOpts rows) row).isSome = true := by
  obtain ⟨rows, report, block, line, keys, children, exprs⟩ :=
    written_closed read (pointing_execSimpleQuery contains ran).1
  have closed : Closed rows :=
    ⟨fun row written key child => (currentOpts_keys rows key).mpr (children row written key child)⟩
  have same : ∀ key ∈ (currentOpts rows).keys, countChild key = key := by
    intro key inside
    obtain rfl | listed := (currentOpts_keys rows key).mp inside
    · rfl
    · obtain ⟨row, written, rfl⟩ := List.mem_map.mp listed
      obtain ⟨r, -, eq⟩ := keys row written
      rw [countChild, if_neg]
      rw [eq]
      exact getNodeTagName_ne r.type
  refine ⟨rows, report, block, line, (currentOpts_keys rows _).mpr (.inl rfl),
    fun e written => ?_, fun row written => ?_⟩
  · have inside := (currentOpts_keys rows e.op).mpr (exprs e written)
    exact ⟨inside, familyOf_isSome closed (fun _ _ => rfl) inside, familyOf_isSome closed same inside⟩
  · have left := closed.children row written _ (.inl rfl)
    have right := closed.children row written _ (.inr rfl)
    exact ⟨left, right, childRows_isSome left right⟩

def sortedScan : List (Event Int) :=
  [.planned ⟨.node ⟨0, .sort, 6, 7, 0⟩ (.node ⟨1, .seqScan, 0, 5, 100⟩ .null .null []) .null [], []⟩,
    .handed (some ⟨1, .seqScan, 0, 5, 100⟩) [3, 6, 0], .counted fun _ => 100]

/-- The lookups for the filter of the scan, and for the two operators. -/
theorem sortedScan_lookups : ∃ s' indices rows report,
      execSimpleQuery (fun _ _ => ⟨0, 0, 0, 0⟩) (start (initial fun _ _ => 0))
        ⟨"SELECT 1".toList, sortedScan⟩ = some (s', indices) ∧
      operatorBlock ⟨id, id⟩ s' = some rows ∧ reportLine ⟨id, id⟩ s' = some report ∧
      (∀ e ∈ report, (levelLookup (currentOpts rows) e).isSome = true ∧
        (countLookup (currentOpts rows) e).isSome = true) ∧
      ∀ row ∈ rows, (timeLookup (currentOpts rows) row).isSome = true := by
  have expressions : containExpr "SELECT 1".toList = true := by decide
  have isSome : (execSimpleQuery (fun _ _ => ⟨0, 0, 0, 0⟩) (start (initial fun _ _ => 0))
      ⟨"SELECT 1".toList, sortedScan⟩).isSome = true := rfl
  obtain ⟨⟨s', indices⟩, ran⟩ := Option.isSome_iff_exists.mp isSome
  obtain ⟨rows, report, block, line, -, exprs, children⟩ :=
    lookups_succeed ⟨id, id⟩ _ _ s' _ indices expressions ran
  exact ⟨s', indices, rows, report, ran, block, line, fun e written => (exprs e written).2,
    fun row written => (children row written).2.2⟩

end Hex.Analysis.OperatorTable
