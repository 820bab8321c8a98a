/-
# Kernel.PlanWalk — which nodes of a plan have a record

What `addPlanTree` appends to `currentSQLOpts`, beside what the records are for:

* the layout (`planQuery_laid`): each tree stands in preorder behind what was
  there, and the pointers of a record lead to the records of the children;
* repetition (`distinct_iff`): the loop that should find a recorded node starts
  behind the last record, so that a node that is planned twice is recorded twice;
* the executor (`recorded_iff`): `ExecInitNode` also goes down to the children of
  an Append, a MergeAppend, a BitmapAnd or BitmapOr, a ModifyTable and to the
  subplan of a SubqueryScan. None of those is reached by the walk, and
  `findOperatorInfo` returns NULL for them.
-/
import Hex.Kernel.Session

namespace Hex.Kernel.PlanWalk

open PlanRecords Session
open JitRouting (Operator)

variable {D : Type}

/-! ## The layout of the records -/

/-- The record has the fields of the node. -/
structure Describes (r : OperatorInfo D) (n : PlanNode D) : Prop where
  optId : r.optId = n.planNodeId
  type : r.type = n.type
  startupCost : r.startupCost = n.startupCost
  totalCost : r.totalCost = n.totalCost

/-- A tree stands in the records in preorder from `base` on: the node, the left
tree and the right tree behind it, with pointers to where these start. -/
def Laid (recs : List (OperatorInfo D)) : Plan D → Nat → Prop
  | .null, _ => True
  | .node n lefttree righttree _, base =>
    (∃ r, recs[base]? = some r ∧ Describes r n ∧ r.left = lefttree.root (base + 1) ∧
      r.right = righttree.root (base + 1 + lefttree.size)) ∧
    Laid recs lefttree (base + 1) ∧ Laid recs righttree (base + 1 + lefttree.size)

section Layout

variable [Zero D]

lemma laid_records : ∀ (p : Plan D) (before after : List (OperatorInfo D)),
    Laid (before ++ (records p before.length ++ after)) p before.length
  | .null, _, _ => trivial
  | .node n l r others, before, after => by
    -- the record of the node, which the two subtrees stand behind
    let first : OperatorInfo D := { newRecord n with
      left := l.root (before.length + 1)
      right := r.root (before.length + 1 + l.size) }
    have records_eq : records (.node n l r others) before.length = first ::
        (records l (before.length + 1) ++ records r (before.length + 1 + l.size)) := rfl
    have left := laid_records l (before ++ [first]) (records r (before.length + 1 + l.size) ++ after)
    have right := laid_records r (before ++ first :: records l (before.length + 1)) after
    have length : (before ++ first :: records l (before.length + 1)).length = before.length + 1 + l.size := by
      rw [List.length_append, List.length_cons, length_records]
      omega
    rw [length] at right
    rw [List.length_append, List.length_singleton] at left
    refine ⟨⟨first, ?_, ⟨rfl, rfl, rfl, rfl⟩, rfl, rfl⟩, ?_, ?_⟩
    · rw [records_eq, List.getElem?_append_right le_rfl, Nat.sub_self]
      rfl
    · simpa [records_eq] using left
    · simpa [records_eq] using right

lemma forest_append (trees more : List (Plan D)) (base : Nat) :
    forest (trees ++ more) base = forest trees base ++ forest more (base + (trees.map Plan.size).sum) := by
  induction trees generalizing base with
  | nil => simp [forest]
  | cons tree trees ih => simp [forest, ih, Nat.add_assoc]

lemma laid_forest (recs : List (OperatorInfo D)) (before : List (Plan D)) (tree : Plan D) (after : List (Plan D)) :
    Laid (recs ++ forest (before ++ tree :: after) recs.length) tree (recs.length + (before.map Plan.size).sum) := by
  have length : (recs ++ forest before recs.length).length = recs.length + (before.map Plan.size).sum := by
    rw [List.length_append, length_forest]
  have laid := laid_records tree (recs ++ forest before recs.length)
    (forest after (recs.length + (before.map Plan.size).sum + tree.size))
  rw [length] at laid
  rw [forest_append]
  show Laid (recs ++ (forest before recs.length ++ (records tree _ ++ forest after _))) tree _
  rwa [← List.append_assoc recs]

/-- **What `pg_plan_query` leaves in the records**: those that were there, and then
the main tree and each subplan in preorder, with pointers to the children. -/
theorem planQuery_laid (stmt : PlannedStmt D) (plan : stmt.planTree ≠ .null) (recs : List (OperatorInfo D))
    (fits : recs.length + ((stmt.planTree :: stmt.subplans).map Plan.size).sum ≤ optListSize) :
    ∃ recs', planQuery stmt recs = some recs' ∧
      recs'.length = recs.length + ((stmt.planTree :: stmt.subplans).map Plan.size).sum ∧
      (∀ i, i < recs.length → recs'[i]? = recs[i]?) ∧
      ∀ before tree after, stmt.planTree :: stmt.subplans = before ++ tree :: after →
        Laid recs' tree (recs.length + (before.map Plan.size).sum) := by
  have trees : stmt.trees = stmt.planTree :: stmt.subplans := by
    obtain ⟨tree, subplans⟩ := stmt
    cases tree with
    | null => exact absurd rfl plan
    | node n l r others => rfl
  have size : stmt.size = ((stmt.planTree :: stmt.subplans).map Plan.size).sum := by
    rw [PlannedStmt.size, trees]
  refine ⟨recs ++ forest stmt.trees recs.length, ?_, ?_, ?_, ?_⟩
  · rw [planQuery_eq stmt (by omega), size, if_pos fits]
  · rw [List.length_append, length_forest, trees]
  · intro i inside
    exact List.getElem?_append_left inside
  · intro before tree after split
    rw [trees, split]
    exact laid_forest recs before tree after

end Layout

/-- A join of a scan with a hashed scan, and a subplan, behind three records. -/
def joinWithSubplan : PlannedStmt Nat where
  planTree := .node ⟨0, .hashJoin, 3, 9, 0⟩ (.node ⟨1, .seqScan, 0, 4, 7⟩ .null .null [])
    (.node ⟨2, .hash, 2, 2, 0⟩ (.node ⟨3, .seqScan, 0, 2, 5⟩ .null .null []) .null []) []
  subplans := [.node ⟨4, .result, 0, 1, 0⟩ .null .null []]

theorem joinWithSubplan_laid : joinWithSubplan.planTree ≠ .null ∧ ∃ recs', planQuery joinWithSubplan
        (List.replicate 3 (newRecord ⟨9, .limit, 0, 0, 0⟩)) = some recs' ∧ recs'.length = 8 ∧
      Laid recs' joinWithSubplan.planTree 3 := by
  have plan : joinWithSubplan.planTree ≠ .null := by
    intro none
    cases none
  obtain ⟨recs', planned, length, _, laid⟩ := planQuery_laid joinWithSubplan plan
    (List.replicate 3 (newRecord ⟨9, .limit, 0, 0, 0⟩)) (by decide)
  exact ⟨plan, recs', planned, length, laid [] _ _ rfl⟩

/-! ## Nodes that are planned again -/

section Walk

variable [Zero D]

def addPlanTrees (trees : List (Plan D)) (recs : List (OperatorInfo D)) :
    Option (List (OperatorInfo D)) :=
  trees.foldlM (fun recs tree => (addPlanTree tree recs).map Prod.fst) recs

def planQueries (stmts : List (PlannedStmt D)) (recs : List (OperatorInfo D)) :
    Option (List (OperatorInfo D)) :=
  stmts.foldlM (fun recs stmt => planQuery stmt recs) recs

section Loop

variable [DecidableEq D]

/-- The loop of `addPlanTree`: the first record from `optIndex` on with the fields of
the node. -/
def findRecorded (recs : List (OperatorInfo D)) (n : PlanNode D) (optIndex : Nat) : Option Nat :=
  ((recs.drop optIndex).findIdx? fun r => r.key = n.key).map (· + optIndex)

/-- `addPlanTree` with its loop, which starts at `allOptInfoNum`. -/
def addPlanTreeLoop : Plan D → List (OperatorInfo D) → Option (List (OperatorInfo D) × Option Nat)
  | .null, recs => some (recs, none)
  | .node n lefttree righttree _, recs =>
    let opened : Option (List (OperatorInfo D) × Nat) :=
      match findRecorded recs n recs.length with
      | some optIndex => some (recs, optIndex)
      | none =>
        if recs.length < optListSize then some (recs ++ [newRecord n], recs.length) else none
    match opened with
    | none => none
    | some (recs, optIndex) =>
      match addPlanTreeLoop lefttree recs with
      | none => none
      | some (recs, left) =>
        match addPlanTreeLoop righttree (recs.modify optIndex ({ · with left := left })) with
        | none => none
        | some (recs, right) =>
          some (recs.modify optIndex ({ · with right := right }), some optIndex)

/-- **The loop never finds a record**, whatever is recorded. -/
theorem addPlanTreeLoop_eq : ∀ (p : Plan D) (recs : List (OperatorInfo D)), addPlanTreeLoop p recs = addPlanTree p recs
  | .null, _ => rfl
  | .node n l r others, recs => by
    have nothing : findRecorded recs n recs.length = none := by simp [findRecorded]
    have left := addPlanTreeLoop_eq l
    have right := addPlanTreeLoop_eq r
    simp only [addPlanTreeLoop, addPlanTree, nothing, left, right]
    by_cases room : recs.length < optListSize
    · obtain one | ⟨⟨recs1, i⟩, one⟩ :=
          Option.eq_none_or_eq_some (addPlanTree l (recs ++ [newRecord n]))
      · simp [room, one]
      · cases two : addPlanTree r (recs1.modify recs.length ({ · with left := i })) <;>
          simp [room, one, two]
    · simp [room]

end Loop

lemma planQuery_eq_addPlanTrees (stmt : PlannedStmt D) (recs : List (OperatorInfo D)) :
    planQuery stmt recs = addPlanTrees stmt.trees recs := by
  obtain ⟨tree, subplans⟩ := stmt
  cases tree with
  | null | node => rfl

lemma planQueries_eq (stmts : List (PlannedStmt D)) (recs : List (OperatorInfo D)) :
    planQueries stmts recs = addPlanTrees (stmts.flatMap PlannedStmt.trees) recs := by
  induction stmts generalizing recs with
  | nil => rfl
  | cons stmt stmts ih =>
    show ((planQuery stmt recs).bind fun recs => planQueries stmts recs) =
      addPlanTrees (stmt.trees ++ stmts.flatMap PlannedStmt.trees) recs
    unfold addPlanTrees
    rw [List.foldlM_append, planQuery_eq_addPlanTrees]
    congr 1
    funext recs
    exact ih recs

/-- The calls of a statement: they stay in the array exactly when all nodes fit. -/
lemma addPlanTrees_iff (trees : List (Plan D)) (recs : List (OperatorInfo D)) : addPlanTrees trees [] = some recs ↔
      (trees.map Plan.size).sum ≤ optListSize ∧ recs = forest trees 0 := by
  rw [addPlanTrees, addTrees_eq trees (Nat.zero_le _), List.length_nil, Nat.zero_add]
  split_ifs with fits
  · simp [fits, eq_comm]
  · simp [fits]

lemma keys_of_addPlanTrees {trees : List (Plan D)} {recs : List (OperatorInfo D)}
    (ran : addPlanTrees trees [] = some recs) : recs.map OperatorInfo.key = trees.flatMap Plan.keys := by
  rw [((addPlanTrees_iff trees recs).mp ran).2, keys_forest]

/-- What the duplicate check is for: at every point of the sequence no two records
have the same id, tag and costs, and a call for a tree whose nodes are all recorded
adds none. -/
def Distinct (trees : List (Plan D)) : Prop :=
  (∃ recs, addPlanTrees trees [] = some recs) ∧
  ∀ before after, trees = before ++ after → ∀ recs, addPlanTrees before [] = some recs →
    (recs.map OperatorInfo.key).Nodup ∧
    ∀ tree rest, after = tree :: rest → (∀ k ∈ tree.keys, k ∈ recs.map OperatorInfo.key) →
      ∀ recs' root, addPlanTree tree recs = some (recs', root) → recs'.length = recs.length

/-- **The records of a statement are distinct exactly when no two nodes it plans have
the same id, tag and costs.** -/
theorem distinct_iff (trees : List (Plan D)) : Distinct trees ↔
    (trees.map Plan.size).sum ≤ optListSize ∧ (trees.flatMap Plan.keys).Nodup := by
  constructor
  · rintro ⟨⟨recs, ran⟩, points⟩
    refine ⟨((addPlanTrees_iff trees recs).mp ran).1, ?_⟩
    rw [← keys_of_addPlanTrees ran]
    exact (points trees [] (List.append_nil trees).symm recs ran).1
  · rintro ⟨fits, distinct⟩
    refine ⟨⟨_, (addPlanTrees_iff trees _).mpr ⟨fits, rfl⟩⟩, ?_⟩
    rintro before after rfl recs ran
    rw [List.flatMap_append, List.nodup_append] at distinct
    have keys := keys_of_addPlanTrees ran
    refine ⟨keys ▸ distinct.1, ?_⟩
    rintro tree rest rfl recorded recs' root added
    -- a recorded node would be there twice, so that the tree has no nodes
    have none : tree.keys = [] := by
      rw [List.eq_nil_iff_forall_not_mem]
      intro k member
      have there := recorded k member
      rw [keys] at there
      exact distinct.2.2 k there k (List.mem_append_left _ member) rfl
    cases tree with
    | null =>
      cases added
      rfl
    | node n l r others => cases none

end Walk

/-- Planning a query a second time records its scan a second time. -/
theorem planned_twice : ¬ Distinct [(.node ⟨0, .seqScan, 0, 5, 0⟩ .null .null [] : Plan Nat),
      .node ⟨0, .seqScan, 0, 5, 0⟩ .null .null []] := by
  rintro ⟨_, points⟩
  exact absurd (points _ [] (List.append_nil _).symm _ rfl).1 (by decide)

/-! ## The nodes the executor initialises -/

mutual

/-- The nodes `ExecInitNode` is called for from a plan on. `kept n i` says whether
the `i`-th child of `n` beside its two trees is among them: run-time pruning leaves
some children of an Append or a MergeAppend out. -/
def execInitNode (kept : PlanNode D → Nat → Bool) : Plan D → List (PlanNode D)
  | .null => []
  | .node n lefttree righttree others =>
    n :: (execInitNode kept lefttree ++ execInitNode kept righttree ++ execInitOthers kept n 0 others)

def execInitOthers (kept : PlanNode D → Nat → Bool) (n : PlanNode D) :
    Nat → List (Plan D) → List (PlanNode D)
  | _, [] => []
  | i, child :: others =>
    (if kept n i then execInitNode kept child else []) ++ execInitOthers kept n (i + 1) others

end

/-- `InitPlan`: the subplans, then the main tree. -/
def initPlan (kept : PlanNode D → Nat → Bool) (stmt : PlannedStmt D) : List (PlanNode D) :=
  stmt.subplans.flatMap (execInitNode kept) ++ execInitNode kept stmt.planTree

def walked : Plan D → List (PlanNode D)
  | .null => []
  | .node n lefttree righttree _ => n :: (walked lefttree ++ walked righttree)

/-- The nodes of a tree the executor initialises and the walk does not reach. -/
def hidden (kept : PlanNode D → Nat → Bool) : Plan D → List (PlanNode D)
  | .null => []
  | .node n lefttree righttree others =>
    hidden kept lefttree ++ hidden kept righttree ++ execInitOthers kept n 0 others

/-- The same for a planned statement; without a main tree nothing is walked. -/
def hiddenIn (kept : PlanNode D → Nat → Bool) (stmt : PlannedStmt D) : List (PlanNode D) :=
  match stmt.planTree with
  | .null => stmt.subplans.flatMap (execInitNode kept)
  | tree => (tree :: stmt.subplans).flatMap (hidden kept)

lemma keys_eq_walked : ∀ p : Plan D, p.keys = (walked p).map PlanNode.key
  | .null => rfl
  | .node n l r _ => by
    simp only [Plan.keys, walked, List.map_cons, List.map_append, keys_eq_walked l,
      keys_eq_walked r]

lemma keys_trees (trees : List (Plan D)) : trees.flatMap Plan.keys = (trees.flatMap walked).map PlanNode.key := by
  rw [List.map_flatMap]
  exact List.flatMap_congr fun tree _ => keys_eq_walked tree

lemma perm_exchange {α : Type} (a b c d : List α) : ((a ++ b) ++ (c ++ d)).Perm ((a ++ c) ++ (b ++ d)) := by
  rw [List.append_assoc, List.append_assoc]
  exact (List.perm_append_comm_assoc b c d).append_left a

section Executor

variable (kept : PlanNode D → Nat → Bool)

lemma execInitNode_perm : ∀ p : Plan D, (execInitNode kept p).Perm (walked p ++ hidden kept p)
  | .null => by simp [execInitNode, walked, hidden]
  | .node n l r others => by
    have left := execInitNode_perm l
    have right := execInitNode_perm r
    have both : (execInitNode kept l ++ execInitNode kept r).Perm
        ((walked l ++ walked r) ++ (hidden kept l ++ hidden kept r)) :=
      (left.append right).trans (perm_exchange _ _ _ _)
    simp only [execInitNode, walked, hidden, List.cons_append]
    rw [← List.append_assoc]
    exact (both.append_right _).cons n

lemma execInitTrees_perm (trees : List (Plan D)) : (trees.flatMap (execInitNode kept)).Perm
    (trees.flatMap walked ++ trees.flatMap (hidden kept)) := by
  induction trees with
  | nil => exact .nil
  | cons tree trees ih =>
    simp only [List.flatMap_cons]
    exact ((execInitNode_perm kept tree).append ih).trans (perm_exchange _ _ _ _)

lemma initPlan_perm (stmt : PlannedStmt D) :
    (initPlan kept stmt).Perm (stmt.trees.flatMap walked ++ hiddenIn kept stmt) := by
  obtain ⟨tree, subplans⟩ := stmt
  cases tree with
  | null => simp [initPlan, hiddenIn, PlannedStmt.trees, execInitNode]
  | node n l r others =>
    have all := execInitTrees_perm kept (.node n l r others :: subplans)
    rw [List.flatMap_cons] at all
    unfold initPlan hiddenIn
    exact List.perm_append_comm.trans all

end Executor

section Found

variable [Zero D] [DecidableEq D]

omit [Zero D] in
lemma findOperatorInfo_ne_none (s : State D) (k : Operator D) :
    findOperatorInfo s k ≠ none ↔ k ∈ s.currentSQLOpts.map OperatorInfo.key := by
  obtain ⟨none, missing⟩ | ⟨i, r, found, entry, same⟩ := findOperatorInfo_cases s k
  · simp [none, missing]
  · refine ⟨fun _ => ?_, fun _ => by simp [found]⟩
    exact List.mem_map.mpr ⟨r, List.mem_of_getElem? entry, same⟩

omit [DecidableEq D] in
/-- What a statement's planning records, and when it does. -/
lemma planQueries_keys (stmts : List (PlannedStmt D)) (P : List (Operator D) → Prop) :
    (∃ recs, planQueries stmts [] = some recs ∧ P (recs.map OperatorInfo.key)) ↔
      (stmts.map PlannedStmt.size).sum ≤ optListSize ∧ P (stmts.flatMap PlannedStmt.keys) := by
  have size : ((stmts.flatMap PlannedStmt.trees).map Plan.size).sum = (stmts.map PlannedStmt.size).sum := by
    induction stmts with
    | nil => rfl
    | cons stmt stmts ih =>
      rw [List.flatMap_cons, List.map_append, List.sum_append, ih, List.map_cons, List.sum_cons]
      rfl
  have keys : (stmts.flatMap PlannedStmt.trees).flatMap Plan.keys = stmts.flatMap PlannedStmt.keys := by
    rw [List.flatMap_assoc]
    rfl
  constructor
  · rintro ⟨recs, planned, holds⟩
    rw [planQueries_eq] at planned
    rw [keys_of_addPlanTrees planned, keys] at holds
    exact ⟨size ▸ ((addPlanTrees_iff _ recs).mp planned).1, holds⟩
  · rintro ⟨fits, holds⟩
    have planned := (addPlanTrees_iff (stmts.flatMap PlannedStmt.trees) _).mpr ⟨size ▸ fits, rfl⟩
    refine ⟨_, (planQueries_eq stmts []).trans planned, ?_⟩
    rw [keys_of_addPlanTrees planned, keys]
    exact holds

omit [Zero D] [DecidableEq D] in
/-- Walked nodes are recorded; what is left are the hidden ones. -/
lemma initPlan_covered_iff (kept : PlanNode D → Nat → Bool) {stmts : List (PlannedStmt D)}
    {stmt : PlannedStmt D} (member : stmt ∈ stmts) :
    (∀ n ∈ initPlan kept stmt, n.key ∈ stmts.flatMap PlannedStmt.keys) ↔
      ∀ n ∈ hiddenIn kept stmt, n.key ∈ stmts.flatMap PlannedStmt.keys := by
  simp only [(initPlan_perm kept stmt).mem_iff, List.forall_mem_append]
  refine and_iff_right fun n reached => ?_
  refine List.mem_flatMap.mpr ⟨stmt, member, ?_⟩
  rw [PlannedStmt.keys, keys_trees]
  exact List.mem_map_of_mem reached

/-- **Every node the executor initialises has a record exactly when** the nodes that
are walked fit the array, and each of the others has the id, tag and costs of one. -/
theorem recorded_iff (kept : PlanNode D → Nat → Bool) (s : State D) (stmts : List (PlannedStmt D)) :
    (∃ recs, planQueries stmts [] = some recs ∧ ∀ stmt ∈ stmts, ∀ n ∈ initPlan kept stmt,
      findOperatorInfo { s with currentSQLOpts := recs } n.key ≠ none) ↔
    (stmts.map PlannedStmt.size).sum ≤ optListSize ∧ ∀ stmt ∈ stmts, ∀ n ∈ hiddenIn kept stmt,
      n.key ∈ stmts.flatMap PlannedStmt.keys := by
  simp only [findOperatorInfo_ne_none]
  rw [planQueries_keys stmts fun keys => ∀ stmt ∈ stmts, ∀ n ∈ initPlan kept stmt, n.key ∈ keys]
  refine and_congr_right fun _ => ?_
  exact forall₂_congr fun stmt member => initPlan_covered_iff kept member

/-- The planner numbers the nodes of a statement. So all nodes of a single one are
found exactly when the walk reaches all that the executor initialises. -/
theorem recorded_iff_of_numbered (kept : PlanNode D → Nat → Bool) (s : State D)
    (stmt : PlannedStmt D) (numbered : ((initPlan kept stmt).map PlanNode.planNodeId).Nodup) :
    (∃ recs, planQueries [stmt] [] = some recs ∧ ∀ n ∈ initPlan kept stmt,
      findOperatorInfo { s with currentSQLOpts := recs } n.key ≠ none) ↔
    stmt.size ≤ optListSize ∧ hiddenIn kept stmt = [] := by
  simp only [findOperatorInfo_ne_none]
  rw [planQueries_keys [stmt] fun keys => ∀ n ∈ initPlan kept stmt, n.key ∈ keys,
    initPlan_covered_iff kept (List.mem_singleton_self stmt)]
  simp only [List.map_cons, List.map_nil, List.sum_cons, List.sum_nil, Nat.add_zero,
    List.flatMap_cons, List.flatMap_nil, List.append_nil]
  refine and_congr_right fun _ => ⟨fun covered => ?_, fun none n member => ?_⟩
  · rw [List.eq_nil_iff_forall_not_mem]
    intro n member
    have found := covered n member
    rw [PlannedStmt.keys, keys_trees] at found
    obtain ⟨n', reached, same⟩ := List.mem_map.mp found
    have apart := ((initPlan_perm kept stmt).map PlanNode.planNodeId).nodup_iff.mp numbered
    rw [List.map_append, List.nodup_append] at apart
    refine apart.2.2 _ (List.mem_map_of_mem reached) _ (List.mem_map_of_mem member) ?_
    exact congrArg Operator.optId same
  · rw [none] at member
    cases member

end Found

def appendOverScan : PlannedStmt Nat where
  planTree := .node ⟨0, .append, 0, 9, 0⟩ .null .null [.node ⟨1, .seqScan, 0, 5, 0⟩ .null .null []]
  subplans := []

/-- The executor initialises the scan, and it has no record. -/
theorem append_child_missing : ∃ recs, planQueries [appendOverScan] [] = some recs ∧
    ⟨1, .seqScan, 0, 5, 0⟩ ∈ initPlan (fun _ _ => true) appendOverScan ∧
    findOperatorInfo { (start (ExprTable.initial fun _ _ => 0) : State Nat) with
      currentSQLOpts := recs } ⟨1, PlanTag.seqScan.code, 0, 5⟩ = none := by
  refine ⟨_, rfl, ?_, by decide⟩
  simp [initPlan, appendOverScan, execInitNode, execInitOthers]

/-- So not every node of the statement has one, though no two have the same number. -/
theorem append_not_recorded : ((initPlan (fun _ _ => true) appendOverScan).map PlanNode.planNodeId).Nodup ∧
    ¬ ∃ recs, planQueries [appendOverScan] [] = some recs ∧ ∀ n ∈ initPlan (fun _ _ => true) appendOverScan,
      findOperatorInfo { (start (ExprTable.initial fun _ _ => 0) : State Nat) with
        currentSQLOpts := recs } n.key ≠ none := by
  have numbered : ((initPlan (fun _ _ => true) appendOverScan).map PlanNode.planNodeId).Nodup := by
    simp [initPlan, appendOverScan, execInitNode, execInitOthers]
  refine ⟨numbered, fun found => ?_⟩
  have none := ((recorded_iff_of_numbered _ _ _ numbered).mp found).2
  simp [hiddenIn, hidden, execInitOthers, execInitNode, appendOverScan] at none

end Hex.Kernel.PlanWalk
