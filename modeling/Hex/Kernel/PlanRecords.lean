/-
# Kernel.PlanRecords — the records of the operators of a statement

`pg_plan_query` (tcop/postgres.c) hands every plan it makes to `addPlanTree`, which
walks down `lefttree` and `righttree` and fills a record of `currentSQLOpts` for
each node; the `left` and `right` of a record point to the records of the
children. The array has `OPT_LIST_SIZE` records and the walk does not look: what
would be written behind it is `none` here. A pointer into the array is the index
of its record.

`records` says what the walk is to leave: the nodes in preorder. `addPlanTree_eq`
says that it does, and that it leaves the array exactly when they do not fit.
-/
import Hex.Kernel.JitRouting

namespace Hex.Kernel.PlanRecords

open JitRouting

def optListSize : Nat := 64

/-- The tags of plan nodes, in the order of `NodeTag`. -/
inductive PlanTag where
  | plan | result | projectSet | modifyTable | append | mergeAppend | recursiveUnion | bitmapAnd
  | bitmapOr | scan | seqScan | sampleScan | indexScan | indexOnlyScan | bitmapIndexScan
  | bitmapHeapScan | tidScan | subqueryScan | functionScan | valuesScan | tableFuncScan | cteScan
  | namedTuplestoreScan | workTableScan | foreignScan | customScan | join | nestLoop | mergeJoin
  | hashJoin | material | sort | incrementalSort | group | agg | windowAgg | unique | gather
  | gatherMerge | hash | setOp | lockRows | limit
  deriving DecidableEq, Repr

/-- The value of the tag: `T_Plan` is 9. -/
def PlanTag.code (tag : PlanTag) : Int := 9 + tag.ctorIdx

def getNodeTagName : PlanTag → String
  | .plan => "T_Plan"
  | .result => "T_Result"
  | .projectSet => "T_ProjectSet"
  | .modifyTable => "T_ModifyTable"
  | .append => "T_Append"
  | .mergeAppend => "T_MergeAppend"
  | .recursiveUnion => "T_RecursiveUnion"
  | .bitmapAnd => "T_BitmapAnd"
  | .bitmapOr => "T_BitmapOr"
  | .scan => "T_Scan"
  | .seqScan => "T_SeqScan"
  | .sampleScan => "T_SampleScan"
  | .indexScan => "T_IndexScan"
  | .indexOnlyScan => "T_IndexOnlyScan"
  | .bitmapIndexScan => "T_BitmapIndexScan"
  | .bitmapHeapScan => "T_BitmapHeapScan"
  | .tidScan => "T_TidScan"
  | .subqueryScan => "T_SubqueryScan"
  | .functionScan => "T_FunctionScan"
  | .valuesScan => "T_ValuesScan"
  | .tableFuncScan => "T_TableFuncScan"
  | .cteScan => "T_CteScan"
  | .namedTuplestoreScan => "T_NamedTuplestoreScan"
  | .workTableScan => "T_WorkTableScan"
  | .foreignScan => "T_ForeignScan"
  | .customScan => "T_CustomScan"
  | .join => "T_Join"
  | .nestLoop => "T_NestLoop"
  | .mergeJoin => "T_MergeJoin"
  | .hashJoin => "T_HashJoin"
  | .material => "T_Material"
  | .sort => "T_Sort"
  | .incrementalSort => "T_IncrementalSort"
  | .group => "T_Group"
  | .agg => "T_Agg"
  | .windowAgg => "T_WindowAgg"
  | .unique => "T_Unique"
  | .gather => "T_Gather"
  | .gatherMerge => "T_GatherMerge"
  | .hash => "T_Hash"
  | .setOp => "T_SetOp"
  | .lockRows => "T_LockRows"
  | .limit => "T_Limit"

/-- `T_Scan <= tag <= T_CustomScan`. -/
def PlanTag.isScan (tag : PlanTag) : Bool :=
  PlanTag.scan.code ≤ tag.code && tag.code ≤ PlanTag.customScan.code

section Records

variable {D : Type}

/-- What the code reads of a plan node; `D` is the type of doubles. -/
structure PlanNode (D : Type) where
  planNodeId : Int
  type : PlanTag
  startupCost : D
  totalCost : D
  inputRows : D

/-- A plan tree; `others` are the children that are neither `lefttree` nor
`righttree`, such as those of an Append. -/
inductive Plan (D : Type) where
  | null
  | node (node : PlanNode D) (lefttree righttree : Plan D) (others : List (Plan D))

structure PlannedStmt (D : Type) where
  planTree : Plan D
  subplans : List (Plan D)

/-- A record of `currentSQLOpts`. -/
structure OperatorInfo (D : Type) where
  optId : Int
  type : PlanTag
  startupCost : D
  totalCost : D
  actualInputRows : D
  actualOutputRows : D
  filteredRows : D
  actualStartupTime : D
  actualTotalTime : D
  left : Option Nat
  right : Option Nat

/-- What `findOperatorInfo` compares. -/
def OperatorInfo.key (r : OperatorInfo D) : Operator D :=
  ⟨r.optId, r.type.code, r.startupCost, r.totalCost⟩

def PlanNode.key (n : PlanNode D) : Operator D :=
  ⟨n.planNodeId, n.type.code, n.startupCost, n.totalCost⟩

variable [Zero D]

/-- `initializeOperatorInfo`, and the fields `addPlanTree` sets before it goes down. -/
def newRecord (n : PlanNode D) : OperatorInfo D where
  optId := n.planNodeId
  type := n.type
  startupCost := n.startupCost
  totalCost := n.totalCost
  actualInputRows := if n.type.isScan then n.inputRows else 0
  actualOutputRows := 0
  filteredRows := 0
  actualStartupTime := 0
  actualTotalTime := 0
  left := none
  right := none

/-- `addPlanTree`: the records, and the pointer it returns. -/
def addPlanTree : Plan D → List (OperatorInfo D) → Option (List (OperatorInfo D) × Option Nat)
  | .null, recs => some (recs, none)
  | .node n lefttree righttree _, recs =>
    let optIndex := recs.length
    -- the loop that looks for the node among the records starts behind the last one
    if optIndex < optListSize then
      match addPlanTree lefttree (recs ++ [newRecord n]) with
      | none => none
      | some (recs, left) =>
        match addPlanTree righttree (recs.modify optIndex ({ · with left := left })) with
        | none => none
        | some (recs, right) =>
          some (recs.modify optIndex ({ · with right := right }), some optIndex)
    else none

/-- The end of `pg_plan_query`. -/
def planQuery (stmt : PlannedStmt D) (recs : List (OperatorInfo D)) :
    Option (List (OperatorInfo D)) :=
  match stmt.planTree with
  | .null => some recs
  | tree =>
    (tree :: stmt.subplans).foldlM (fun recs tree => (addPlanTree tree recs).map Prod.fst) recs

/-! ## What the walk leaves -/

def Plan.size : Plan D → Nat
  | .null => 0
  | .node _ lefttree righttree _ => lefttree.size + righttree.size + 1

/-- The pointer to the record of a tree whose records start at `base`. -/
def Plan.root : Plan D → Nat → Option Nat
  | .null, _ => none
  | .node _ _ _ _, base => some base

/-- The records of a tree that start at `base`, in preorder. -/
def records : Plan D → Nat → List (OperatorInfo D)
  | .null, _ => []
  | .node n lefttree righttree _, base =>
    { newRecord n with
      left := lefttree.root (base + 1)
      right := righttree.root (base + 1 + lefttree.size) } ::
    (records lefttree (base + 1) ++ records righttree (base + 1 + lefttree.size))

lemma length_records : ∀ (p : Plan D) (base : Nat), (records p base).length = p.size
  | .null, _ => rfl
  | .node _ l r _, base => by
    simp only [records, List.length_cons, List.length_append, length_records l,
      length_records r, Plan.size]

omit [Zero D] in
lemma modify_at_length (f : OperatorInfo D → OperatorInfo D) (a : List (OperatorInfo D))
    (x : OperatorInfo D) (b : List (OperatorInfo D)) : (a ++ x :: b).modify a.length f = a ++ f x :: b := by
  induction a with
  | nil => rfl
  | cons y a ih => simp [ih]

/-- **The walk appends the nodes in preorder, with pointers to the children**, and
leaves the array exactly when they do not fit. -/
theorem addPlanTree_eq : ∀ (p : Plan D) (recs : List (OperatorInfo D)),
    recs.length ≤ optListSize → addPlanTree p recs = if recs.length + p.size ≤ optListSize then
        some (recs ++ records p recs.length, p.root recs.length)
      else none
  | .null, recs, inside => by
    simp [addPlanTree, Plan.size, inside, records, Plan.root]
  | .node n l r others, recs, inside => by
    have size : (Plan.node n l r others).size = l.size + r.size + 1 := rfl
    simp only [addPlanTree]
    by_cases room : recs.length < optListSize
    · have first : (recs ++ [newRecord n]).length = recs.length + 1 := by simp
      rw [if_pos room, addPlanTree_eq l _ (first ▸ room), first]
      by_cases left : recs.length + 1 + l.size ≤ optListSize
      · have filled := modify_at_length ({ · with left := l.root (recs.length + 1) }) recs
          (newRecord n) (records l (recs.length + 1))
        have second : (recs ++ { newRecord n with left := l.root (recs.length + 1) } ::
            records l (recs.length + 1)).length = recs.length + 1 + l.size := by
          simp only [List.length_append, List.length_cons, length_records]
          omega
        simp only [if_pos left, List.append_assoc, List.singleton_append, filled]
        rw [addPlanTree_eq r _ (second ▸ left), second]
        by_cases right : recs.length + 1 + l.size + r.size ≤ optListSize
        · have all : recs.length + (Plan.node n l r others).size ≤ optListSize := by omega
          simp only [if_pos right, if_pos all, List.append_assoc, List.cons_append,
            modify_at_length, records, Plan.root]
        · have all : ¬ recs.length + (Plan.node n l r others).size ≤ optListSize := by omega
          simp only [if_neg right, if_neg all]
      · have all : ¬ recs.length + (Plan.node n l r others).size ≤ optListSize := by omega
        simp only [if_neg left, if_neg all]
    · have all : ¬ recs.length + (Plan.node n l r others).size ≤ optListSize := by omega
      rw [if_neg room, if_neg all]

/-- The trees a statement is walked through. -/
def PlannedStmt.trees (stmt : PlannedStmt D) : List (Plan D) :=
  match stmt.planTree with
  | .null => []
  | tree => tree :: stmt.subplans

/-- The number of nodes the walks of a statement reach. -/
def PlannedStmt.size (stmt : PlannedStmt D) : Nat := (stmt.trees.map Plan.size).sum

def forest : List (Plan D) → Nat → List (OperatorInfo D)
  | [], _ => []
  | tree :: trees, base => records tree base ++ forest trees (base + tree.size)

lemma length_forest (trees : List (Plan D)) (base : Nat) :
    (forest trees base).length = (trees.map Plan.size).sum := by
  induction trees generalizing base with
  | nil => rfl
  | cons tree trees ih => simp [forest, length_records, ih]

lemma addTrees_eq (trees : List (Plan D)) {recs : List (OperatorInfo D)} (inside : recs.length ≤ optListSize) :
    trees.foldlM (fun recs tree => (addPlanTree tree recs).map Prod.fst) recs =
      if recs.length + (trees.map Plan.size).sum ≤ optListSize then
        some (recs ++ forest trees recs.length)
      else none := by
  induction trees generalizing recs with
  | nil => simp [forest, inside]
  | cons tree trees ih =>
    rw [List.foldlM_cons, addPlanTree_eq tree recs inside, List.map_cons, List.sum_cons]
    by_cases first : recs.length + tree.size ≤ optListSize
    · have length : (recs ++ records tree recs.length).length = recs.length + tree.size := by
        rw [List.length_append, length_records]
      rw [if_pos first]
      simp only [Option.map_some, Option.bind_eq_bind, Option.bind_some]
      rw [ih (length ▸ first), length, Nat.add_assoc, List.append_assoc, ← forest]
    · have all : ¬ recs.length + (tree.size + (trees.map Plan.size).sum) ≤ optListSize := by omega
      rw [if_neg first, if_neg all]
      rfl

/-- **What planning a statement leaves.** -/
theorem planQuery_eq (stmt : PlannedStmt D) {recs : List (OperatorInfo D)}
    (inside : recs.length ≤ optListSize) : planQuery stmt recs =
      if recs.length + stmt.size ≤ optListSize then some (recs ++ forest stmt.trees recs.length)
      else none := by
  obtain ⟨tree, subplans⟩ := stmt
  cases tree with
  | null => simp [planQuery, PlannedStmt.size, PlannedStmt.trees, inside, forest]
  | node n l r others => exact addTrees_eq _ inside

/-! ## The keys of the records -/

/-- The nodes of a tree, as `findOperatorInfo` compares them. -/
def Plan.keys : Plan D → List (Operator D)
  | .null => []
  | .node n lefttree righttree _ => n.key :: (lefttree.keys ++ righttree.keys)

def PlannedStmt.keys (stmt : PlannedStmt D) : List (Operator D) := stmt.trees.flatMap Plan.keys

lemma keys_records : ∀ (p : Plan D) (base : Nat), (records p base).map OperatorInfo.key = p.keys
  | .null, _ => rfl
  | .node n l r _, base => by
    simp only [records, List.map_cons, List.map_append, keys_records l, keys_records r, Plan.keys]
    rfl

lemma keys_forest (trees : List (Plan D)) (base : Nat) :
    (forest trees base).map OperatorInfo.key = trees.flatMap Plan.keys := by
  induction trees generalizing base with
  | nil => rfl
  | cons tree trees ih => simp [forest, keys_records, ih]

lemma length_keys (stmt : PlannedStmt D) : stmt.keys.length = stmt.size := by
  rw [PlannedStmt.keys, ← keys_forest stmt.trees 0, List.length_map, length_forest]
  rfl

/-! ## The pointers of the records -/

/-- Every pointer of a record points to a record. -/
def Linked (recs : List (OperatorInfo D)) : Prop :=
  ∀ r ∈ recs, ∀ k, r.left = some k ∨ r.right = some k → k < recs.length

omit [Zero D] in
lemma root_lt {p : Plan D} {base k : Nat} (root : p.root base = some k) : base ≤ k ∧ k < base + p.size := by
  cases p with
  | null => cases root
  | node n l r others =>
    cases root
    simp [Plan.size]

lemma mem_records_lt : ∀ (p : Plan D) (base : Nat), ∀ r ∈ records p base, ∀ k,
    r.left = some k ∨ r.right = some k → k < base + p.size
  | .null, _ => by simp [records]
  | .node n l r others, base => by
    have size : (Plan.node n l r others).size = l.size + r.size + 1 := rfl
    intro record member k points
    simp only [records, List.mem_cons, List.mem_append] at member
    obtain rfl | inLeft | inRight := member
    · obtain left | right := points
      · have := root_lt left
        omega
      · have := root_lt right
        omega
    · have := mem_records_lt l (base + 1) record inLeft k points
      omega
    · have := mem_records_lt r (base + 1 + l.size) record inRight k points
      omega

lemma mem_forest_lt (trees : List (Plan D)) (base : Nat) : ∀ r ∈ forest trees base, ∀ k,
    r.left = some k ∨ r.right = some k → k < base + (trees.map Plan.size).sum := by
  induction trees generalizing base with
  | nil => simp [forest]
  | cons tree trees ih =>
    intro r member k points
    simp only [List.map_cons, List.sum_cons]
    obtain here | there := List.mem_append.mp member
    · have := mem_records_lt tree base r here k points
      omega
    · have := ih (base + tree.size) r there k points
      omega

/-- **Planning keeps the pointers inside the records.** -/
theorem Linked.forest {recs : List (OperatorInfo D)} (linked : Linked recs) (trees : List (Plan D)) :
    Linked (recs ++ forest trees recs.length) := by
  intro r member k points
  rw [List.length_append, length_forest]
  obtain old | new := List.mem_append.mp member
  · have := linked r old k points
    omega
  · exact mem_forest_lt trees recs.length r new k points

omit [Zero D] in
lemma Linked.modify {recs : List (OperatorInfo D)} (linked : Linked recs) (i : Nat)
    {f : OperatorInfo D → OperatorInfo D} (left : ∀ r, (f r).left = r.left)
    (right : ∀ r, (f r).right = r.right) : Linked (recs.modify i f) := by
  intro r member k points
  rw [List.length_modify]
  obtain ⟨j, inside⟩ := List.mem_iff_getElem?.mp member
  rw [List.getElem?_modify] at inside
  obtain ⟨old, found, rfl⟩ := Option.map_eq_some_iff.mp inside
  refine linked old (List.mem_of_getElem? found) k ?_
  split at points
  · rwa [left, right] at points
  · exact points

end Records

end Hex.Kernel.PlanRecords
