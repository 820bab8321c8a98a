/-
# Analysis.LevelOrder — the order in which the runs were collected

The level-analysis script has one running minimum for the runs of all statements,
and sets it back only at a list of expressions and operators that is new. A run
between two runs of another statement can therefore decide which of these two the
vectors are taken from (`interleaved_rows_differ`).

A run updates exactly when it *leads*: it is faster than all since the minimum was
set back (`updating_eq_leading`).

When the runs of each statement follow one another and no two statements share a list,
those of a statement update that do when there are no others (`filter_updating`), and
the statements may be collected in any order (`rows_of_reordered`).
-/
import Hex.Analysis.LevelScript

namespace Hex.Analysis.LevelScript

open Kernel.Report
open Theory.CText Theory.FallibleLoop Theory.PyText Theory.WriteLog

/-! ## The runs of a statement -/

section Runs

variable {F : Type} {runs runs' : List (Run F)} {pair : Text × Text}

def runsOf (pair : Text × Text) (runs : List (Run F)) : List (Run F) :=
  runs.filter fun run => run.pair = pair

def Grouped (runs : List (Run F)) : Prop := ∀ pair, runsOf pair runs <:+: runs

/-- No two statements share a list of expressions and operators, unless they report
nothing in any of their runs. -/
def Separate (runs : List (Run F)) : Prop :=
  ∀ run ∈ runs, ∀ other ∈ runs, run.currentExpr = other.currentExpr → run.pair ≠ other.pair →
    ∀ r ∈ runsOf run.pair runs, r.report = []

lemma mem_runsOf {run : Run F} :
    run ∈ runsOf pair runs ↔ run ∈ runs ∧ run.pair = pair := by
  simp [runsOf]

/-- What stands around the runs of a statement that follow one another is of others. -/
lemma Grouped.split (grouped : Grouped runs) (pair : Text × Text) :
    ∃ before behind, runs = before ++ runsOf pair runs ++ behind ∧
      runsOf pair before = [] ∧ runsOf pair behind = [] := by
  obtain ⟨before, behind, whole⟩ := grouped pair
  have length := congrArg (fun l => (runsOf pair l).length) whole
  have own : runsOf pair (runsOf pair runs) = runsOf pair runs := by
    rw [runsOf, List.filter_eq_self]
    intro run member
    simpa using (mem_runsOf.mp member).2
  simp only [runsOf, List.filter_append, List.length_append] at length
  simp only [runsOf] at own
  rw [own] at length
  refine ⟨before, behind, whole.symm, List.eq_nil_of_length_eq_zero ?_,
    List.eq_nil_of_length_eq_zero ?_⟩
  · rw [runsOf]
    omega
  · rw [runsOf]
    omega

/-- The runs of each statement are the same, and in the same order. -/
def SameRuns (runs runs' : List (Run F)) : Prop :=
  ∀ pair, runsOf pair runs = runsOf pair runs'

lemma SameRuns.mem_iff (same : SameRuns runs runs') (run : Run F) :
    run ∈ runs ↔ run ∈ runs' := by
  have own : ∀ l : List (Run F), run ∈ l ↔ run ∈ runsOf run.pair l := fun l => by
    simp [mem_runsOf]
  rw [own, same, ← own]

lemma SameRuns.separate (same : SameRuns runs runs')
    (separate : Separate runs) : Separate runs' := by
  intro run member other inside equal differ r own
  rw [← same] at own
  exact separate run ((same.mem_iff run).mpr member) other ((same.mem_iff other).mpr inside) equal differ r own

end Runs

/-! ## The clock -/

section Clock

variable {F : Type} [DecidableEq F] [Zero F] [LT F] [DecidableLT F] {runs : List (Run F)}

lemma next_updates (c : Clock F) (run : Run F) :
    (c.next run).2 = decide (c.bound run = 0 ∨ run.execTime < c.bound run) := by
  by_cases known : run.currentExpr ∈ c.levels.keys <;>
    simp only [Clock.next, Clock.bound, known, decide_true, decide_false, if_true, if_false,
      Bool.false_eq_true] <;> split_ifs with late <;> simp [late]

lemma next_minTime (c : Clock F) (run : Run F) : (c.next run).1.minTime =
      if c.bound run = 0 ∨ run.execTime < c.bound run then run.execTime else c.bound run := by
  by_cases known : run.currentExpr ∈ c.levels.keys <;>
    simp only [Clock.next, Clock.bound, known, decide_true, decide_false, if_true, if_false,
      Bool.false_eq_true] <;> split_ifs with late <;> rfl

lemma mem_keys_next (c : Clock F) (run : Run F) (expr : List (Int × OpKey F)) :
    expr ∈ (c.next run).1.levels.keys ↔ expr ∈ c.levels.keys ∨ expr = run.currentExpr := by
  by_cases known : run.currentExpr ∈ c.levels.keys
  · have absorbed : expr ∈ c.levels.keys ↔ expr ∈ c.levels.keys ∨ expr = run.currentExpr :=
      ⟨.inl, fun either => either.elim id fun same => same ▸ known⟩
    simp only [Clock.next, known, decide_true, if_true]
    split_ifs
    · exact Dict.mem_keys_set _ _ _ _
    · exact absorbed
  · simp only [Clock.next, known, decide_false, if_false, Bool.false_eq_true, true_or, if_true,
      Dict.mem_keys_set, or_assoc, or_self]

lemma mem_keys_after (c : Clock F) (runs : List (Run F)) (expr : List (Int × OpKey F)) :
    expr ∈ (c.after runs).levels.keys ↔ expr ∈ c.levels.keys ∨ ∃ run ∈ runs, expr = run.currentExpr := by
  induction runs generalizing c with
  | nil => simp [Clock.after]
  | cons run runs ih =>
    show expr ∈ ((c.next run).1.after runs).levels.keys ↔ _
    rw [ih, mem_keys_next]
    simp [or_assoc]

/-- Two clocks that agree on what the runs ask of them let the same runs update. -/
lemma updatingFrom_congr {c c' : Clock F} (bound : ∀ run ∈ runs.head?, c.bound run = c'.bound run)
    (seen : ∀ run ∈ runs, run.currentExpr ∈ c.levels.keys ↔ run.currentExpr ∈ c'.levels.keys) :
    updatingFrom c runs = updatingFrom c' runs := by
  induction runs generalizing c c' with
  | nil => rfl
  | cons run runs ih =>
    have same : c.bound run = c'.bound run := bound run rfl
    have minTime : (c.next run).1.minTime = (c'.next run).1.minTime := by
      rw [next_minTime, next_minTime, same]
    have later : ∀ r ∈ runs, r.currentExpr ∈ (c.next run).1.levels.keys ↔
        r.currentExpr ∈ (c'.next run).1.levels.keys := by
      intro r member
      rw [mem_keys_next, mem_keys_next, seen r (List.mem_cons_of_mem _ member)]
    have rest := ih (fun r first => by
      have member : r ∈ runs := List.mem_of_mem_head? first
      simp only [Clock.bound, minTime, later r member]) later
    rw [updatingFrom, updatingFrom, next_updates, next_updates, same, rest]

/-- The clock starts anew at runs whose lists it has not seen. -/
lemma updatingFrom_new {c : Clock F}
    (new : ∀ run ∈ runs, run.currentExpr ∉ c.levels.keys) : updatingFrom c runs = updating runs := by
  apply updatingFrom_congr
  · intro run first
    have fresh := new run (List.mem_of_mem_head? first)
    simp [Clock.bound, fresh, Clock.start]
  · intro run member
    simp [new run member, Clock.start]

lemma runsOf_updatingFrom {pair : Text × Text} (c : Clock F)
    (others : runsOf pair runs = []) : runsOf pair (updatingFrom c runs) = [] := by
  have sublist := (updatingFrom_sublist c runs).filter fun run => run.pair = pair
  rw [runsOf] at others
  rwa [others, List.sublist_nil] at sublist

/-- **The runs of a statement that update do so by themselves**, when they follow one
another and no other statement has one of their lists. -/
theorem filter_updating (grouped : Grouped runs) {pair : Text × Text}
    (own : ∀ run ∈ runsOf pair runs, ∀ other ∈ runs, run.currentExpr = other.currentExpr →
      other.pair = pair) : runsOf pair (updating runs) = updating (runsOf pair runs) := by
  obtain ⟨before, behind, whole, noneBefore, noneBehind⟩ := grouped.split pair
  have new : ∀ run ∈ runsOf pair runs, run.currentExpr ∉ (Clock.start.after before).levels.keys := by
    intro run member seen
    rw [mem_keys_after] at seen
    obtain impossible | ⟨other, inside, same⟩ := seen
    · simp [Clock.start] at impossible
    · have there : other ∈ runs := by
        rw [whole]
        simp [inside]
      have mine := mem_runsOf.mpr ⟨inside, own run member other there same⟩
      simp [noneBefore] at mine
  have inner : runsOf pair (updating (runsOf pair runs)) = updating (runsOf pair runs) := by
    rw [runsOf, List.filter_eq_self]
    intro run member
    simpa using (mem_runsOf.mp ((updatingFrom_sublist _ _).subset member)).2
  calc runsOf pair (updating runs)
      = runsOf pair (updatingFrom .start (before ++ runsOf pair runs ++ behind)) := by
        rw [← whole, updating]
    _ = runsOf pair (updatingFrom (Clock.start.after before) (runsOf pair runs)) := by
        rw [List.append_assoc, updatingFrom_append, updatingFrom_append]
        have first := runsOf_updatingFrom .start noneBefore
        have last := runsOf_updatingFrom ((Clock.start.after before).after (runsOf pair runs)) noneBehind
        simp only [runsOf, List.filter_append] at first last ⊢
        rw [first, last, List.nil_append, List.append_nil]
    _ = updating (runsOf pair runs) := by
        rw [updatingFrom_new new, inner]

end Clock

/-! ## The runs that lead -/

section Leading

variable {F : Type} [LinearOrder F] [Zero F] {before : List (Run F)} {run : Run F} {t : F}

/-- The minimum is set back at a run: its list is new, or the run before it took no time. -/
def SetsBack (before : List (Run F)) (run : Run F) : Prop :=
  (∀ r ∈ before, r.currentExpr ≠ run.currentExpr) ∨ ∃ r ∈ before.getLast?, r.execTime = 0

/-- All runs since one at which the minimum was set back took more than `t`. -/
def Slower (before : List (Run F)) (t : F) : Prop :=
  ∃ older first since, before = older ++ first :: since ∧ SetsBack older first ∧ ∀ r ∈ first :: since, t < r.execTime

/-- A run leads when it is faster than all since the minimum was set back. -/
def Leads (before : List (Run F)) (run : Run F) : Prop := SetsBack before run ∨ Slower before run.execTime

open Classical in
/-- The runs that lead, behind `before`. -/
noncomputable def leadingFrom (before : List (Run F)) : List (Run F) → List (Run F)
  | [] => []
  | run :: rest =>
    if Leads before run then run :: leadingFrom (before ++ [run]) rest else leadingFrom (before ++ [run]) rest

noncomputable def leading (runs : List (Run F)) : List (Run F) := leadingFrom [] runs

lemma slower_append {r : Run F} : Slower (before ++ [r]) t ↔ t < r.execTime ∧ (SetsBack before r ∨ Slower before t) := by
  constructor
  · rintro ⟨older, first, since, split, back, slower⟩
    obtain rfl | ⟨since, last, rfl⟩ := since.eq_nil_or_concat'
    · obtain ⟨rfl, ⟨⟩⟩ := List.append_inj' split rfl
      exact ⟨slower r List.mem_cons_self, .inl back⟩
    · rw [← List.cons_append, ← List.append_assoc] at split
      obtain ⟨rfl, ⟨⟩⟩ := List.append_inj' split rfl
      rw [← List.cons_append, List.forall_mem_append] at slower
      exact ⟨slower.2 r (List.mem_singleton.mpr rfl), .inr ⟨older, first, since, rfl, back, slower.1⟩⟩
  · rintro ⟨last, back | ⟨older, first, since, rfl, back, slower⟩⟩
    · exact ⟨before, r, [], rfl, back, List.forall_mem_singleton.mpr last⟩
    · refine ⟨older, first, since ++ [r], by simp, back, ?_⟩
      rw [← List.cons_append, List.forall_mem_append]
      exact ⟨slower, List.forall_mem_singleton.mpr last⟩

lemma Slower.mono {u : F} (slower : Slower before u) (less : t < u) : Slower before t := by
  obtain ⟨older, first, since, split, back, all⟩ := slower
  exact ⟨older, first, since, split, back, fun r member => less.trans (all r member)⟩

/-- The clock behind the runs `before`: a run that took `t` goes below the minimum. -/
def Clock.Shows (c : Clock F) (before : List (Run F)) : Prop :=
  (∀ expr, expr ∈ c.levels.keys ↔ ∃ r ∈ before, expr = r.currentExpr) ∧ 0 ≤ c.minTime ∧
    ∀ t, (c.minTime = 0 ∨ t < c.minTime) ↔ (∀ r ∈ before.getLast?, r.execTime = 0) ∨ Slower before t

lemma Clock.Shows.leads_iff {c : Clock F} (shows : c.Shows before) (run : Run F) :
    (c.bound run = 0 ∨ run.execTime < c.bound run) ↔ Leads before run := by
  unfold Clock.bound Leads SetsBack
  by_cases known : run.currentExpr ∈ c.levels.keys
  · obtain ⟨r, member, same⟩ := (shows.1 _).mp known
    have old : ¬ ∀ r ∈ before, r.currentExpr ≠ run.currentExpr := fun new => new r member same.symm
    have last : before.getLast? = some (before.getLast (List.ne_nil_of_mem member)) := List.getLast?_eq_getLast_of_ne_nil _
    rw [if_pos known, shows.2.2, last]
    simp [old]
  · rw [if_neg known]
    refine iff_of_true (.inl rfl) (.inl (.inl fun r member same => known ?_))
    exact (shows.1 _).mpr ⟨r, member, same.symm⟩

lemma Clock.Shows.next {c : Clock F} (shows : c.Shows before) (timed : 0 ≤ run.execTime) :
    (c.next run).1.Shows (before ++ [run]) := by
  refine ⟨fun expr => ?_, ?_⟩
  · rw [mem_keys_next, shows.1]
    simp [or_and_right, exists_or]
  have leads := shows.leads_iff run
  simp only [slower_append, List.getLast?_append, List.getLast?_singleton, Option.some_or, Option.mem_some_iff, forall_eq']
  rw [next_minTime]
  split_ifs with updates
  · -- the run is the new minimum, and all it was compared with took more
    refine ⟨timed, fun t => or_congr_right ⟨fun less => ⟨less, ?_⟩, And.left⟩⟩
    exact (leads.mp updates).imp_right fun slower => slower.mono less
  · obtain ⟨nonzero, slow⟩ := not_or.mp updates
    have known : run.currentExpr ∈ c.levels.keys := by
      by_contra new
      exact nonzero (if_neg new)
    have bound : c.bound run = c.minTime := if_pos known
    obtain ⟨behind, -⟩ := not_or.mp (mt leads.mpr updates)
    rw [bound] at nonzero slow ⊢
    refine ⟨shows.2.1, fun t => ?_⟩
    have positive : run.execTime ≠ 0 := fun zero => nonzero (le_antisymm (zero ▸ not_lt.mp slow) shows.2.1)
    have old : ¬ ∀ r ∈ before.getLast?, r.execTime = 0 := fun zero =>
      ((shows.2.2 c.minTime).mpr (.inl zero)).elim nonzero (lt_irrefl _)
    have asked := shows.2.2 t
    simp only [nonzero, old, positive, behind, false_or] at asked ⊢
    exact ⟨fun less => ⟨less.trans_le (not_lt.mp slow), asked.mp less⟩, fun both => asked.mpr both.2⟩

/-- **The runs that update are those that lead**, where no time is negative. -/
theorem updatingFrom_eq {c : Clock F} (shows : c.Shows before) {runs : List (Run F)}
    (timed : ∀ run ∈ runs, 0 ≤ run.execTime) : updatingFrom c runs = leadingFrom before runs := by
  induction runs generalizing c before with
  | nil => rfl
  | cons run runs ih =>
    obtain ⟨here, later⟩ := List.forall_mem_cons.mp timed
    have updates : (c.next run).2 = true ↔ Leads before run := by
      rw [next_updates, decide_eq_true_eq, shows.leads_iff]
    rw [updatingFrom, leadingFrom, ih (shows.next here) later]
    by_cases leads : Leads before run
    · rw [if_pos (updates.mpr leads), if_pos leads]
    · rw [if_neg (mt updates.mp leads), if_neg leads]

lemma updating_eq_leading {runs : List (Run F)} (timed : ∀ run ∈ runs, 0 ≤ run.execTime) :
    updating runs = leading runs :=
  updatingFrom_eq ⟨by simp [Clock.start], le_refl _, by simp [Clock.start]⟩ timed

end Leading

/-! ## The edits of a statement -/

section Edits

variable {F : Type} [DecidableEq F] [Zero F] {runs : List (Run F)}

def editsOf (run : Run F) : List (Edit F) := (edits run).getD []

lemma editsOf_pair {run : Run F} {e : Edit F} (member : e ∈ editsOf run) : e.pair = run.pair := by
  cases read : edits run with
  | none => simp [editsOf, read] at member
  | some es =>
    simp only [editsOf, read, Option.getD_some] at member
    obtain ⟨entry, -, made⟩ := (mem_of_mapM read e).mp member
    obtain ⟨change, -, rfl⟩ := Option.map_eq_some_iff.mp made
    rfl

lemma edits_silent {run : Run F} (silent : run.report = []) : edits run = some [] := by
  simp [edits, silent]

lemma flatMap_editsOf {es : List (List (Edit F))}
    (read : runs.mapM edits = some es) : es.flatten = runs.flatMap editsOf := by
  rw [mapM_eq_some_iff] at read
  induction read with
  | nil => rfl
  | cons here _ ih => simp [editsOf, here, ← ih]

lemma filter_editsOf (runs : List (Run F)) (pair : Text × Text) :
    (runs.flatMap editsOf).filter (fun e => e.pair = pair) = (runsOf pair runs).flatMap editsOf := by
  induction runs with
  | nil => rfl
  | cons run runs ih =>
    rw [List.flatMap_cons, List.filter_append, ih]
    by_cases here : run.pair = pair
    · have all : (editsOf run).filter (fun e => e.pair = pair) = editsOf run := by
        rw [List.filter_eq_self]
        intro e member
        simpa [here] using editsOf_pair member
      simp [runsOf, here, all]
    · have none : (editsOf run).filter (fun e => e.pair = pair) = [] := by
        rw [List.filter_eq_nil_iff]
        intro e member
        simpa [here] using (editsOf_pair member).trans_ne here
      simp [runsOf, here, none]

/-- **The vectors of a statement are made by the edits of its runs that update.** -/
theorem vectorsOf_levelVectors [LT F] [DecidableLT F] {vectors : Vectors F}
    (left : levelVectors runs = some vectors) (pair : Text × Text) :
    vectorsOf vectors pair = editExprs .empty ((runsOf pair (updating runs)).flatMap editsOf) := by
  rw [levelVectors_eq] at left
  obtain ⟨es, read, rfl⟩ := Option.map_eq_some_iff.mp left
  rw [vectorsOf_makeEdits, flatMap_editsOf read, filter_editsOf]
  rfl

lemma levelVectors_eq_none [LT F] [DecidableLT F] :
    levelVectors runs = none ↔ ∃ run ∈ updating runs, edits run = none := by
  rw [levelVectors_eq, Option.map_eq_none_iff, mapM_eq_none_iff]

end Edits

/-! ## The rows of two lists of runs -/

section Rows

variable {F : Type} {runs runs' : List (Run F)}

lemma nodup_flat (vectors : Vectors F) : (flat vectors).Nodup := by
  rw [flat, List.nodup_flatMap]
  refine ⟨fun db _ => List.nodup_flatMap.mpr ⟨fun sql _ => ?_, ?_⟩, ?_⟩
  · apply (List.Nodup.of_map Prod.fst sql.2.distinct).map
    intro a b same
    simpa using same
  · refine (List.pairwise_map.mp db.2.distinct).imp fun differ => ?_
    rw [Function.onFun, List.disjoint_left]
    rintro entry first second
    obtain ⟨_, _, rfl⟩ := List.mem_map.mp first
    obtain ⟨_, _, same⟩ := List.mem_map.mp second
    exact differ (congrArg (fun entry => entry.2.1) same).symm
  · refine (List.pairwise_map.mp vectors.distinct).imp fun differ => ?_
    rw [Function.onFun, List.disjoint_left]
    rintro entry first second
    obtain ⟨_, _, first⟩ := List.mem_flatMap.mp first
    obtain ⟨_, _, rfl⟩ := List.mem_map.mp first
    obtain ⟨_, _, second⟩ := List.mem_flatMap.mp second
    obtain ⟨_, _, same⟩ := List.mem_map.mp second
    exact differ (congrArg Prod.fst same).symm

lemma flat_perm {vectors vectors' : Vectors F} (same : ∀ pair, vectorsOf vectors pair = vectorsOf vectors' pair) :
    (flat vectors).Perm (flat vectors') := by
  rw [List.perm_ext_iff_of_nodup (nodup_flat _) (nodup_flat _)]
  rintro ⟨db, sql, expr⟩
  rw [mem_flat, mem_flat, same]

variable [DecidableEq F] [Zero F] [LT F] [DecidableLT F]

/-- A statement that reports an expression in one of its runs has its lists for itself. -/
lemma Separate.filter_updating (separate : Separate runs)
    (grouped : Grouped runs) {run : Run F} (member : run ∈ runs) (reports : run.report ≠ []) :
    runsOf run.pair (updating runs) = updating (runsOf run.pair runs) := by
  apply LevelScript.filter_updating grouped
  intro r own other inside equal
  obtain ⟨there, pair⟩ := mem_runsOf.mp own
  by_contra differ
  have silent := separate r there other inside equal (pair ▸ Ne.symm differ)
  exact reports (silent run (mem_runsOf.mpr ⟨member, pair.symm⟩))

lemma SameRuns.edits (same : SameRuns runs runs')
    (separate : Separate runs) (grouped : Grouped runs) (grouped' : Grouped runs') (pair : Text × Text) :
    (runsOf pair (updating runs)).flatMap editsOf = (runsOf pair (updating runs')).flatMap editsOf := by
  by_cases reports : ∃ run ∈ runsOf pair runs, run.report ≠ []
  · obtain ⟨run, own, reports⟩ := reports
    obtain ⟨member, rfl⟩ := mem_runsOf.mp own
    rw [separate.filter_updating grouped member reports, same,
      (same.separate separate).filter_updating grouped' ((same.mem_iff run).mp member) reports]
  · push Not at reports
    have none : ∀ l, SameRuns runs l → (runsOf pair (updating l)).flatMap editsOf = [] := by
      intro l equal
      rw [List.flatMap_eq_nil_iff]
      intro run member
      obtain ⟨updates, own⟩ := mem_runsOf.mp member
      have there := (equal.mem_iff run).mpr ((updatingFrom_sublist _ _).subset updates)
      rw [editsOf, edits_silent (reports run (mem_runsOf.mpr ⟨there, own⟩))]
      rfl
    rw [none runs fun _ => rfl, none runs' same]

lemma SameRuns.unreadable (same : SameRuns runs runs')
    (separate : Separate runs) (grouped : Grouped runs) (grouped' : Grouped runs')
    (failed : levelVectors runs = none) : levelVectors runs' = none := by
  rw [levelVectors_eq_none] at failed ⊢
  obtain ⟨run, updates, unread⟩ := failed
  have member := (updatingFrom_sublist _ _).subset updates
  have reports : run.report ≠ [] := fun silent => by
    rw [edits_silent silent] at unread
    cases unread
  have own := mem_runsOf.mpr ⟨updates, rfl⟩
  rw [separate.filter_updating grouped member reports, same,
    ← (same.separate separate).filter_updating grouped' ((same.mem_iff run).mp member) reports] at own
  exact ⟨run, (mem_runsOf.mp own).1, unread⟩

variable [Add F] [Mul F] [Div F] [NatCast F] [IntCast F]

/-- **The order of the statements does not matter** when the runs of each follow one
another and no two statements share a list of expressions and operators: from two
such lists with the same runs of each statement the script writes the same rows up to
their order, or raises an exception for both. -/
theorem rows_of_reordered (files : Files F) (runs runs' : List (Run F))
    (same : SameRuns runs runs') (grouped : Grouped runs) (grouped' : Grouped runs') (separate : Separate runs) :
    (levelRows files runs = none ∧ levelRows files runs' = none) ∨
      ∃ rows rows', levelRows files runs = some rows ∧ levelRows files runs' = some rows' ∧ rows.Perm rows' := by
  have back : SameRuns runs' runs := fun pair => (same pair).symm
  cases left : levelVectors runs with
  | none =>
    have left' := same.unreadable separate grouped grouped' left
    exact .inl ⟨by simp [levelRows, left], by simp [levelRows, left']⟩
  | some vectors =>
    cases left' : levelVectors runs' with
    | none =>
      have failed := back.unreadable (same.separate separate) grouped' grouped left'
      rw [left] at failed
      cases failed
    | some vectors' =>
      have equal : ∀ pair, vectorsOf vectors pair = vectorsOf vectors' pair := by
        intro pair
        rw [vectorsOf_levelVectors left, vectorsOf_levelVectors left',
          same.edits separate grouped grouped' pair]
      obtain ⟨failed, failed'⟩ | ⟨rows, rows', written, written', perm⟩ :=
        mapM_perm (f := rowOf files) (flat_perm equal)
      · exact .inl ⟨by simp [levelRows, left, failed], by simp [levelRows, left', failed']⟩
      · exact .inr ⟨rows.reduceOption, rows'.reduceOption, by simp [levelRows, left, written],
          by simp [levelRows, left', written'], perm.filterMap id⟩

end Rows

/-! ## Two statements -/

def scanRow : OpRow Int := ⟨⟨1, "T_SeqScan", 0, 5⟩, 100, 10, 90, 0, 3, .invalid, .invalid⟩

def filterRun (sql : Text) (exprId level execTime : Int) : Run Int where
  exprs := [⟨exprId, level, scanRow.key⟩]
  planTime := 1
  execTime := execTime
  operators := [scanRow]
  sql := sql
  db := ['d']
  report := [⟨exprId, 100, scanRow.key⟩]

/-- The first statement was run with two levels, and faster with level 1. -/
def slowBefore : List (Run Int) :=
  [filterRun ['a'] 1 1 5, filterRun ['a'] 1 2 7, filterRun ['b'] 2 0 9]

/-- The second statement was run in between. -/
def slowBetween : List (Run Int) :=
  [filterRun ['a'] 1 1 5, filterRun ['b'] 2 0 9, filterRun ['a'] 1 2 7]

def slowFirst : List (Run Int) :=
  [filterRun ['b'] 2 0 9, filterRun ['a'] 1 1 5, filterRun ['a'] 1 2 7]

def twoExpressions : Files Int where
  exprEeops := Dict.empty.set "d" ((Dict.empty.set 1 []).set 2 [])
  eeopFactors := .empty

def bestLevels (rows : List (Row Int)) : List (Int × Int) :=
  rows.map fun row => (row.exprId, row.vector.bestLevel)

/-- Only the statements of a list have runs in it. -/
lemma runsOf_cases {P : Text × Text → Prop} {runs : List (Run Int)} (some : ∀ run ∈ runs, P run.pair)
    (none : ∀ pair, runsOf pair runs = [] → P pair) (pair : Text × Text) : P pair := by
  by_cases found : ∃ run ∈ runs, run.pair = pair
  · obtain ⟨run, member, rfl⟩ := found
    exact some run member
  · refine none pair (List.filter_eq_nil_iff.mpr fun run member same => found ⟨run, member, ?_⟩)
    exact of_decide_eq_true same

lemma pair_a (exprId level execTime : Int) : (filterRun ['a'] exprId level execTime).pair = (['d'], ['a']) := by
  show (strip ['d'], normalised ['a']) = _
  decide

lemma pair_b (exprId level execTime : Int) : (filterRun ['b'] exprId level execTime).pair = (['d'], ['b']) := by
  show (strip ['d'], normalised ['b']) = _
  decide

/-- **A run in between changes the best level**: the minimum is that of the second
statement when the slower run of the first one comes. -/
theorem interleaved_rows_differ : SameRuns slowBefore slowBetween ∧
      ∃ rows rows', levelRows twoExpressions slowBefore = some rows ∧
        levelRows twoExpressions slowBetween = some rows' ∧ ¬ rows.Perm rows' := by
  constructor
  · intro pair
    by_cases first : (['d'], ['a']) = pair
    · subst first
      simp [runsOf, slowBefore, slowBetween, pair_a, pair_b]
    · simp [runsOf, slowBefore, slowBetween, List.filter_cons, pair_a, pair_b, first]
  · have before : (levelRows twoExpressions slowBefore).map bestLevels = some [(1, 1), (2, 0)] := by
      decide +kernel
    have between : (levelRows twoExpressions slowBetween).map bestLevels = some [(1, 2), (2, 0)] := by
      decide +kernel
    obtain ⟨rows, written, levels⟩ := Option.map_eq_some_iff.mp before
    obtain ⟨rows', written', levels'⟩ := Option.map_eq_some_iff.mp between
    refine ⟨rows, rows', written, written', fun perm => ?_⟩
    have same : (bestLevels rows).Perm (bestLevels rows') := perm.map _
    rw [levels, levels'] at same
    exact absurd same (by decide)

/-- The second statement may be collected before the first one or behind it. -/
theorem slow_statement_first : ∃ rows rows', levelRows twoExpressions slowBefore = some rows ∧
      levelRows twoExpressions slowFirst = some rows' ∧ rows.Perm rows' := by
  have same : SameRuns slowBefore slowFirst := by
    intro pair
    by_cases first : (['d'], ['a']) = pair
    · subst first
      simp [runsOf, slowBefore, slowFirst, pair_a, pair_b]
    · simp [runsOf, slowBefore, slowFirst, List.filter_cons, pair_a, pair_b, first]
  have grouped : Grouped slowBefore :=
    runsOf_cases (by decide +kernel) fun pair none => none ▸ List.nil_infix
  have grouped' : Grouped slowFirst :=
    runsOf_cases (by decide +kernel) fun pair none => none ▸ List.nil_infix
  have separate : Separate slowBefore := by
    intro run member other inside equal differ
    simp only [slowBefore, List.mem_cons, List.not_mem_nil, or_false] at member inside
    obtain rfl | rfl | rfl := member <;> obtain rfl | rfl | rfl := inside <;> first
      | exact absurd rfl differ
      | exact absurd equal (by decide)
  obtain ⟨failed, -⟩ | written := rows_of_reordered twoExpressions slowBefore slowFirst same grouped grouped' separate
  · have isSome : (levelRows twoExpressions slowBefore).isSome = true := by decide +kernel
    rw [failed] at isSome
    cases isSome
  · exact written

end Hex.Analysis.LevelScript
