/-
# Compiler.FollowsAccess — containers, rows and domains

The expressions that take values apart or put them together: subscripts, field stores,
ROW, XML, the coercions through text and to a domain. Their workspace stays clean while
their parts are evaluated. For each of them there is a lemma that gives `Follows` for the
expression from `Follows` for its parts.
-/
import Hex.Compiler.Follows

namespace Hex.Compiler

open Theory.BlockCode

section Access

variable {w : World} {llvm : Llvm} {uses uses1 uses2 first first1 first2 : Bool} {s : Scope} {res : Cell} {h : Nat}
  {D : Set Cell} {g : Scope → Cell → Gen 0} {n : Nat} {rest : Scope → Cell → Option Cell → Option Cell → Gen 0}

lemma fresh_work {h : Nat} (k : Nat) (lt : k < n) : Fresh h (h + n) (.work (h + k)) :=
  ⟨h + k, Nat.le_add_right h k, Nat.add_lt_add_left lt h, rfl⟩

/-! ## Arrays, rows and XML -/

lemma follows_scalarArrayOp {scalar array : Scope → Cell → Gen 0} (helper : Helper)
    (scalarFollows : Follows w llvm uses1 first1 scalar) (arrayFollows : Follows w llvm uses2 first2 array) :
    Follows w llvm (uses1 || uses2) first2 fun s res => .palloc 2 fun h =>
      (scalar s (.work h)).seq ((array s res).seq (.step (.eval helper [.work h, res] [res]))) := by
  intro s res h D entry
  have fresh : Fresh h (h + 2) (.work h) := fresh_work 0 (by decide)
  have ran1 := (scalarFollows (entry.child (.palloc 2) Bool.or_inl fresh)).weaken diff_sub
  have onward := ran1.onward fun _ => id
  have second : Entry uses2 first2 s res _ _ := entry.later (Onward.trans (.palloc 2) onward) Bool.or_inr fun _ => id
  refine Runs.palloc (ran1.seq ((arrayFollows second).seq (Runs.step (steps_evalTo helper ?_)) diff_sub) dirty_diff)
    subset_dirty
  refine List.forall_mem_cons.mpr ⟨?_, List.forall_mem_singleton.mpr second.cleared⟩
  exact (onward.trans (.behind diff_sub)).clean (entry.clean_fresh fresh) fresh.older

lemma follows_xml {k : Nat} {named args : Scope → List Cell → Gen 0} (helper : Helper)
    (namedFills : Fills w llvm uses1 named) (argsFill : Fills w llvm uses2 args) :
    Follows w llvm (uses1 || uses2) first fun s res => .palloc (n + k) fun h =>
      (named s (workCells h n)).seq ((args s (workCells (h + n) k)).seq
        (.step (.eval helper (workCells h n ++ workCells (h + n) k) [res]))) := by
  intro s res h D entry
  have cells : ∀ c ∈ workCells h (n + k), Entry (uses1 || uses2) false s c (h + (n + k)) D := entry.cells id
  rw [workCells_add] at cells
  have ran1 := namedFills fun c member =>
    (cells c (List.mem_append_left _ member)).later (.same fun _ => id) Bool.or_inl fun _ => id
  have onward := ran1.onward fun _ => id
  have ran2 := argsFill fun c member => (cells c (List.mem_append_right _ member)).later onward Bool.or_inr fun _ => id
  refine Runs.palloc (ran1.seq (ran2.seq (Runs.step (steps_evalTo helper ?_)) dirty_diff) dirty_diff) subset_dirty
  rw [← workCells_add]
  exact entry.clean_later (onward.trans (ran2.onward fun _ => id))

lemma runs_nulls (cells : List Cell) : ∀ k : Nat, Runs w llvm (genNulls k cells) h D D := by
  induction cells with
  | nil => exact fun _ => Runs.nop
  | cons c rest ih =>
    intro k
    cases k with
    | zero => exact Runs.skip (fun _ => ⟨rfl, rfl⟩) (ih 0)
    | succ k => exact Runs.skip (fun _ => ⟨rfl, rfl⟩) (ih k)

lemma follows_row {k : Nat} {args : Scope → List Cell → Gen 0} (helper : Helper) (fills : Fills w llvm uses args) :
    Follows w llvm uses first fun s res => .palloc n fun h =>
      (genNulls k (workCells h n)).seq ((args s (workCells h n)).seq (.step (.eval helper (workCells h n) [res]))) := by
  intro s res h D entry
  have nulls : Runs w llvm (genNulls k (workCells h n)) (h + n) D D := runs_nulls _ _
  have onward := nulls.onward fun _ => id
  have ran := fills fun c member => (entry.cells id c member).later onward id fun _ => id
  refine Runs.palloc (nulls.seq (ran.seq (Runs.step (steps_evalTo helper ?_)) dirty_diff) dirty_diff) subset_dirty
  exact entry.clean_later (onward.trans (ran.onward fun _ => id))

/-! ## Coercion through text -/

/-- `CoerceViaIO`: the constants among the arguments of the input function were stored while
compiling. -/
lemma follows_coerceViaIo (outfunc infunc : Func) (typioparam typmod : NullableDatum)
    (arg : Follows w llvm uses first g) :
    Follows w llvm uses first fun s res => (g s res).seq <| .palloc 4 fun h =>
      (Gen.store (.work (h + 2)) typioparam).seq <| (Gen.store (.work (h + 3)) typmod).seq <|
      .step (.ioCoerce res { func := outfunc, args := workCells h 1 }
        { func := infunc, args := workCells (h + 1) 3 }) := by
  intro s res h D entry
  have behind : Entry uses first s res _ ((g s res).spoils h (D \ {res})) :=
    entry.later (.behind diff_sub) id fun _ => id
  refine (arg entry).andThen (Runs.palloc (Runs.skip (fun _ => ⟨rfl, rfl⟩)
    (Runs.skip (fun _ => ⟨rfl, rfl⟩) (Runs.step (steps_ioCoerce entry.cleared nofun
    (fun c member => ?_) (behind.not_mem_workCells 1))))) subset_dirty)
  have fresh := mem_workCells.mp (List.mem_of_mem_tail member)
  exact behind.clean_fresh (fresh.mono (Nat.le_add_right _ 1) le_rfl)

/-! ## Subscripts -/

/-- Subscripts are evaluated one after the other into the cell `sub`; where a fetch finds a
NULL, it is left. -/
def Indexes (w : World) (llvm : Llvm) (uses : Bool) (g : Scope → Cell → Cell → Gen 1) : Prop :=
  ∀ ⦃s : Scope⦄ ⦃res sub : Cell⦄ ⦃h : Nat⦄ ⦃D : Set Cell⦄, Entry uses false s sub h D →
    Leaves w llvm (g s res sub) h D D D

lemma indexes_nil : Indexes w llvm uses fun _ _ _ => .nop := fun _ _ _ _ _ _ => Runs.nop.leaves

lemma indexes_cons {rest : Scope → Cell → Cell → Gen 1} (helper : Helper) (isAssignment : Bool)
    (arg : Follows w llvm uses1 first g) (later : Indexes w llvm uses2 rest) :
    Indexes w llvm (uses1 || uses2) fun s res sub =>
      (Gen.inner (g s sub)).seq
        ((Gen.jump (.sbsrefSubscript res sub helper isAssignment) [0] Gen.first_inside).seq (rest s res sub)) := by
  intro s res sub h D entry
  have own : Entry uses1 first s sub h D := entry.later (.same fun _ => id) Bool.or_inl nofun
  refine Leaves.mono ((arg own).inner.leaves.andThen ?_) diff_sub diff_sub
  exact Leaves.jump (steps_sbsrefSubscript helper isAssignment entry.cleared) (fun _ => id)
    (later (entry.later (.behind diff_sub) Bool.or_inr fun _ => id))

/-- The end of a `SubscriptingRef`, with cells for the old and for the new value. -/
def Assigns (w : World) (llvm : Llvm) (g : Scope → Cell → Cell → Cell → Gen 0) : Prop :=
  ∀ ⦃s : Scope⦄ ⦃res prev replace : Cell⦄ ⦃h : Nat⦄ ⦃D : Set Cell⦄, Entry false false s replace h D →
    Older h prev → prev ∉ D → prev ≠ replace → Older h res → res ∉ D → Runs w llvm (g s res prev replace) h D D

lemma assigns_fetch (helper : Helper) : Assigns w llvm fun _ res _ _ => .step (.eval helper [res] [res]) :=
  fun _ _ _ _ _ _ _ _ _ _ _ clean =>
    (Runs.step (steps_evalTo helper (List.forall_mem_singleton.mpr clean))).weaken diff_sub

lemma assigns_value (fetchOld : Bool) (old assign : Helper) (value : Follows w llvm uses first g) :
    Assigns w llvm fun s res prev replace =>
      (if fetchOld then Gen.step (.eval old [res] [prev]) else .nop).seq <|
      (g { s with caseval := some prev } replace).seq <| .step (.eval assign [res, replace] [res]) := by
  intro s res prev replace h D target oldPrev cleanPrev apart oldRes clean
  have fetched : Runs w llvm (if fetchOld then Gen.step (.eval old [res] [prev]) else .nop : Gen 0) h D D := by
    cases fetchOld with
    | false => exact Runs.nop
    | true => exact (Runs.step (steps_evalTo old (List.forall_mem_singleton.mpr clean))).weaken diff_sub
  have onward := fetched.onward fun _ => id
  have later : Entry false false s replace _ _ := target.later onward id fun _ => id
  have entry : Entry uses first { s with caseval := some prev } replace _ _ := later.withCaseval
    (oldPrev.mono onward.grows) (onward.clean cleanPrev oldPrev) fun _ eq => absurd eq apart
  refine fetched.andThen (((value entry).andThen (Runs.weaken (Runs.step (steps_evalTo assign ?_)) diff_sub)).weaken
    diff_sub)
  refine List.forall_mem_cons.mpr ⟨?_, List.forall_mem_singleton.mpr entry.cleared⟩
  exact (onward.trans (.behind diff_sub)).clean clean oldRes

lemma follows_subscriptingRef {upper lower : Scope → Cell → Cell → Gen 1}
    {finish : Scope → Cell → Cell → Cell → Gen 0} {uses3 : Bool} (isAssignment : Bool)
    (container : Follows w llvm uses1 first g) (uppers : Indexes w llvm uses2 upper)
    (lowers : Indexes w llvm uses3 lower) (assigns : Assigns w llvm finish) :
    Follows w llvm (uses1 || uses2 || uses3) first fun s res => .palloc 3 fun h => .block <|
      (Gen.inner (g s res)).seq <|
      (if isAssignment then Gen.nop else Gen.jump (.jumpIfNull res) [0] Gen.first_inside).seq <|
      (upper s res (.work h)).seq <| (lower s res (.work h)).seq <|
      .inner (finish s res (.work (h + 1)) (.work (h + 2))) := by
  intro s res h D entry
  have own : Entry uses1 first s res (h + 3) D :=
    entry.later (.palloc 3) (fun used => Bool.or_inl (Bool.or_inl used)) fun _ => id
  -- the workspace is clean as long as only newer cells and the container were written
  have fresh (k : Nat) (lt : k < 3) : Fresh h (h + 3) (.work (h + k)) := fresh_work k lt
  have target {uses' : Bool} {h' : Nat} {M : Set Cell} (k : Nat) (lt : k < 3) (onward : Onward (h + 3) D h' M)
      (used : uses' = true → (uses1 || uses2 || uses3) = true) : Entry uses' false s (.work (h + k)) h' M :=
    entry.child (Onward.trans (.palloc 3) onward) used ((fresh k lt).mono (Nat.le_refl h) onward.grows)
  have ran := container own
  have checked (h' : Nat) {M : Set Cell} (clean : res ∉ M) : Leaves w llvm
      (if isAssignment then Gen.nop else Gen.jump (.jumpIfNull res) [0] Gen.first_inside : Gen 1) h' M M M := by
    cases isAssignment with
    | false => exact Carries.leaving (steps_jumpIfNull clean).carries subset_spoils subset_spoils
    | true => exact Runs.nop.leaves
  have cleared : res ∉ (g s res).spoils (h + 3) (D \ {res}) := own.cleared
  have ranCheck := checked ((g s res).piece (h + 3)).heap cleared
  have onCheck := ranCheck.onward fun _ => id
  have onward1 := (ran.onward diff_sub).trans onCheck
  have ranUpper : Leaves w llvm (upper s res (.work h)) _ _ _ _ :=
    uppers (target 0 (by decide) onward1 fun used => Bool.or_inl (Bool.or_inr used))
  have onUpper := onCheck.trans (ranUpper.onward fun _ => id)
  have onward2 := (ran.onward diff_sub).trans onUpper
  have ranLower : Leaves w llvm (lower s res (.work h)) _ _ _ _ := lowers (target 0 (by decide) onward2 Bool.or_inr)
  have onLower := onUpper.trans (ranLower.onward fun _ => id)
  have onward3 := (ran.onward diff_sub).trans onLower
  have finished := assigns (target 2 (by decide) onward3 nofun) ((fresh 1 (by decide)).older.mono onward3.grows)
    (onward3.clean (entry.clean_fresh (fresh 1 (by decide))) (fresh 1 (by decide)).older) (by simp)
    (own.old.mono onward3.grows) (onLower.clean cleared (own.old.mono ((g s res).grows _)))
  exact Runs.palloc (Runs.block (ran.inner.leaves.andThen (ranCheck.andThen (ranUpper.andThen (ranLower.andThen
    finished.inner.leaves))))) subset_dirty

/-! ## Field stores -/

/-- New values are computed into the cells of the old ones. -/
def Renews (w : World) (llvm : Llvm) (g : Scope → Nat → Nat → Gen 0) : Prop :=
  ∀ ⦃s : Scope⦄ ⦃base n h : Nat⦄ ⦃D : Set Cell⦄, (∀ c ∈ workCells base n, Entry false false s c h D ∧ c ∉ D) →
    Runs w llvm (g s base n) h D D

lemma renews_nil : Renews w llvm fun _ _ _ => .nop := fun _ _ _ _ _ _ => Runs.nop

lemma renews_cons {rest : Scope → Nat → Nat → Gen 0} (fieldnum : Int) (value : Follows w llvm uses first g)
    (reads : uses = true → first = true) (later : Renews w llvm rest) :
    Renews w llvm fun s base n =>
      (if fieldnum ≤ 0 ∨ fieldnum > n then Gen.nop
        else g { s with caseval := some (.work (base + (fieldnum - 1).toNat)) }
          (.work (base + (fieldnum - 1).toNat))).seq (rest s base n) := by
  intro s base n h D cells
  have renewed : Runs w llvm (if fieldnum ≤ 0 ∨ fieldnum > n then Gen.nop
      else g { s with caseval := some (.work (base + (fieldnum - 1).toNat)) }
        (.work (base + (fieldnum - 1).toNat))) h D D := by
    split
    · exact Runs.nop
    · -- the old value of the field stands where the new one is computed
      obtain ⟨entry, clean⟩ := cells _ (mem_workCells.mpr (fresh_work (fieldnum - 1).toNat (by omega)))
      exact (value (entry.withCaseval entry.old clean fun used _ => reads used)).weaken diff_sub
  have onward := renewed.onward fun _ => id
  refine renewed.andThen (later fun c member => ?_)
  obtain ⟨entry, clean⟩ := cells c member
  exact ⟨entry.later onward id fun _ => id, onward.clean clean entry.old⟩

lemma follows_fieldStore {newvals : Scope → Nat → Nat → Gen 0} (n : Nat) (deForm form : Helper)
    (arg : Follows w llvm uses first g) (renews : Renews w llvm newvals) :
    Follows w llvm uses first fun s res => .palloc n fun h =>
      (g s res).seq <| (Gen.step (.eval deForm [res] (workCells h n))).seq <| (newvals s h n).seq <|
      .step (.eval form (workCells h n) [res]) := by
  intro s res h D entry
  have own : Entry uses first s res (h + n) D := entry.later (.palloc n) id fun _ => id
  have deformed : Runs w llvm (Gen.step (.eval deForm [res] (workCells h n)) : Gen 0)
      ((g s res).piece (h + n)).heap ((g s res).spoils (h + n) (D \ {res})) ((g s res).spoils (h + n) (D \ {res})) := by
    refine (Runs.step (steps_eval deForm _ (List.forall_mem_singleton.mpr own.cleared))).weaken ?_
    exact fun c inside => inside.1
  have onward := ((arg own).onward diff_sub).trans (deformed.onward fun _ => id)
  have cells : ∀ c ∈ workCells h n, Entry false false s c (h + n) D := entry.cells nofun
  have renewed := renews fun c member =>
    ⟨(cells c member).later onward id fun _ => id, entry.clean_later onward c member⟩
  refine Runs.palloc ((arg own).andThen (deformed.andThen (renewed.andThen (Runs.weaken (Runs.step
    (steps_evalTo form ?_)) diff_sub)))) subset_dirty
  exact entry.clean_later (onward.trans (renewed.onward fun _ => id))

/-! ## Domains -/

/-- The constraints of a domain are checked: `check` is the cell for results of checks and
`domainval` the one of the value, as soon as they are allocated. -/
structure Checking (uses : Bool) (s : Scope) (res : Cell) (check domainval : Option Cell) (h : Nat) (D : Set Cell) :
    Prop where
  older : ∀ c ∈ D, Older h c
  held : ∀ c, c = res ∨ Scope.Holds uses { s with domainval := domainval } c → Older h c ∧ c ∉ D ∧ check ≠ some c
  oldCheck : ∀ c, check = some c → Older h c

namespace Checking

variable {check domainval : Option Cell}

lemma later {h1 : Nat} {M : Set Cell} (checking : Checking uses s res check domainval h D) (onward : Onward h D h1 M)
    (used : uses1 = true → uses = true) : Checking uses1 s res check domainval h1 M := by
  refine ⟨onward.older checking.older, fun c holds => ?_, fun c eq => (checking.oldCheck c eq).mono onward.grows⟩
  obtain ⟨old, clean, apart⟩ := checking.held c (holds.imp_right fun holds => holds.mono used)
  exact ⟨old.mono onward.grows, onward.clean clean old, apart⟩

lemma clean (checking : Checking uses s res check domainval h D) : res ∉ D := (checking.held res (Or.inl rfl)).2.1

lemma withCheck (checking : Checking uses s res check domainval h D) :
    Checking uses s res (some (check.getD (.work h))) domainval (h + if check.isSome then 0 else 1) D := by
  cases check with
  | some c => exact checking
  | none =>
    refine { checking.later (.palloc 1) id with held := fun c holds => ?_, oldCheck := ?_ }
    · obtain ⟨old, clean, _⟩ := checking.held c holds
      exact ⟨old.mono (Nat.le_succ h), clean, fun eq => old h (Nat.le_refl h) (Option.some.inj eq).symm⟩
    · rintro c ⟨⟩
      exact older_work (Nat.lt_succ_self h)

lemma withDomainval {value : Cell} (checking : Checking uses s res check none h D)
    (kept : Older h value ∧ value ∉ D ∧ check ≠ some value) : Checking uses s res check (some value) h D := by
  refine { checking with held := ?_ }
  rintro c (eq | ⟨used, eq⟩ | ⟨⟨⟩⟩)
  · exact checking.held c (Or.inl eq)
  · exact checking.held c (Or.inr (Or.inl ⟨used, eq⟩))
  · exact kept

lemma withValue {c : Cell} (checking : Checking uses s res (some c) domainval h D) (varlena : Bool) :
    Checking uses s res (some c) (some (domainval.getD (if varlena then .work h else res)))
      (h + if domainval.isSome || !varlena then 0 else 1) D := by
  cases domainval with
  | some value => exact checking
  | none =>
    cases varlena with
    | false => exact checking.withDomainval (checking.held res (Or.inl rfl))
    | true =>
      refine (checking.later (.palloc 1) id).withDomainval ⟨older_work (Nat.lt_succ_self h), fun inside => ?_, fun eq => ?_⟩
      · exact checking.older _ inside h (Nat.le_refl h) rfl
      · exact checking.oldCheck c rfl h (Nat.le_refl h) (Option.some.inj eq)

lemma entry {c value : Cell} (checking : Checking uses s res (some c) (some value) h D)
    (used : uses1 = true → uses = true) : Entry uses1 first { s with domainval := some value } c h D where
  older := checking.older
  held x holds := by
    obtain ⟨old, clean, _⟩ := checking.held x (Or.inr (holds.mono used))
    exact ⟨old, clean⟩
  old := checking.oldCheck c rfl
  clear := clear_of_not_holds fun holds => (checking.held c (Or.inr (holds.mono used))).2.2 rfl

end Checking

def Constrains (w : World) (llvm : Llvm) (uses : Bool) (g : Scope → Cell → Option Cell → Option Cell → Gen 0) : Prop :=
  ∀ ⦃s : Scope⦄ ⦃res : Cell⦄ ⦃check domainval : Option Cell⦄ ⦃h : Nat⦄ ⦃D : Set Cell⦄,
    Checking uses s res check domainval h D → Runs w llvm (g s res check domainval) h D D

lemma constrains_nil : Constrains w llvm uses fun _ _ _ _ => .nop := fun _ _ _ _ _ _ _ => Runs.nop

lemma constrains_notnull (typeName : String) (later : Constrains w llvm uses rest) :
    Constrains w llvm uses fun s res check domainval =>
      (Gen.step (.domainNotnull res typeName)).seq (rest s res check domainval) := by
  intro s res check domainval h D checking
  have ran : Runs w llvm (Gen.step (.domainNotnull res typeName) : Gen 0) h D D :=
    Runs.step (steps_domainNotnull typeName checking.clean)
  exact ran.andThen (later (checking.later (ran.onward fun _ => id) id))

lemma Checking.runs_check {c value : Cell}
    (typeName name : String) (known : Bool) (ready : Checking (uses1 || uses2) s res (some c) (some value) h D)
    (expr : Follows w llvm uses1 first g) (later : Constrains w llvm uses2 rest) :
    Runs w llvm ((if known then Gen.nop else Gen.step (.makeReadonly value res)).seq <|
      (g { s with domainval := some value } c).seq <| (Gen.step (.domainCheck c typeName name)).seq <|
      rest s res (some c) (some value)) h D D := by
  have readonly : Runs w llvm (if known then Gen.nop else Gen.step (.makeReadonly value res) : Gen 0) h D D := by
    cases known with
    | true => exact Runs.nop
    | false => exact (Runs.step (steps_makeReadonly ready.clean)).weaken diff_sub
  have onward := readonly.onward fun _ => id
  have entry : Entry uses1 first { s with domainval := some value } c _ _ := (ready.later onward id).entry Bool.or_inl
  refine readonly.andThen (Runs.weaken ((expr entry).andThen (Runs.andThen (Runs.step
    (steps_domainCheck typeName name entry.cleared)) (later (ready.later ?_ Bool.or_inr)))) diff_sub)
  exact onward.trans (Onward.trans (.behind diff_sub) (.behind fun _ => id))

lemma constrains_check (typeName name : String)
    (varlena : Bool) (expr : Follows w llvm uses1 first g) (later : Constrains w llvm uses2 rest) :
    Constrains w llvm (uses1 || uses2) fun s res check domainval =>
      .palloc (if check.isSome then 0 else 1) fun h =>
        .palloc (if domainval.isSome || !varlena then 0 else 1) fun h' =>
          (if domainval.isSome || !varlena then Gen.nop
            else Gen.step (.makeReadonly (domainval.getD (if varlena then .work h' else res)) res)).seq <|
          (g { s with domainval := some (domainval.getD (if varlena then .work h' else res)) }
            (check.getD (.work h))).seq <|
          (Gen.step (.domainCheck (check.getD (.work h)) typeName name)).seq <|
          rest s res (some (check.getD (.work h))) (some (domainval.getD (if varlena then .work h' else res))) := by
  intro s res check domainval h D checking
  have ran := (checking.withCheck.withValue varlena).runs_check typeName name (domainval.isSome || !varlena) expr later
  exact Runs.palloc (Runs.palloc ran subset_dirty) subset_dirty

lemma follows_coerceToDomain {constraints : Scope → Cell → Option Cell → Option Cell → Gen 0}
    (arg : Follows w llvm uses1 first g) (constrains : Constrains w llvm uses2 constraints) :
    Follows w llvm (uses1 || uses2) first fun s res => (g s res).seq (constraints s res none none) := by
  intro s res h D entry
  have onward : Onward h D _ ((g s res).spoils h (D \ {res})) := .behind diff_sub
  have ran := arg (entry.later (.same fun _ => id) Bool.or_inl fun _ => id)
  refine ran.andThen (constrains ⟨onward.older entry.older, ?_, nofun⟩)
  rintro c (rfl | holds)
  · exact ⟨entry.old.mono onward.grows, entry.cleared, nofun⟩
  · obtain ⟨old, clean⟩ := entry.held c (Or.inl ⟨Bool.or_inr (holds.resolve_right nofun).1, (holds.resolve_right nofun).2⟩)
    exact ⟨old.mono onward.grows, onward.clean clean old, nofun⟩

end Access

end Hex.Compiler
