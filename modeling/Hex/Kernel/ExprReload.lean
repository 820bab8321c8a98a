/-
# Kernel.ExprReload — reading the expression file again

`parse_expression_file` (access/transam/xlog.c) allocates the table anew and enters the
expressions of the file in it. The numbers come from `exprNum`, which nothing sets
back, and not from the lines. A postmaster that creates its shared memory again after
a crash calls it again, in the same process.

`readings` are such calls on one file. `reload_numbered_iff` says when the last of them
gives every expression the number of its line.
-/
import Hex.Kernel.ExprIdentity
import Hex.Kernel.ExprFile

namespace Hex.Kernel.ExprFile

open ExprTable OpNames Theory.CText Theory.ProbeTable

variable {exprs rest : List (List Int)} {t : Table} {garbage : Nat → Nat → Nat → Int}

/-- The lines of some expressions, numbered behind `k`. -/
def linesFrom (k : Nat) : List (List Int) → List Text
  | [] => []
  | steps :: rest => exprLine (k + 1) steps :: linesFrom (k + 1) rest

def fileFor (exprs : List (List Int)) : Text := fileOf (linesFrom 0 exprs)

/-- The expressions of a file whose lines fit the buffer, and that the table can tell
apart. -/
structure Listed (exprs : List (List Int)) : Prop where
  codes : ∀ steps ∈ exprs, ∀ step ∈ steps, IsCode step
  few : ∀ steps ∈ exprs, steps.length ≤ exprSize
  fits : ∀ line ∈ linesFrom 0 exprs, line.length < lineRoom
  distinct : (exprs.map key).Nodup

/-- Calls of `parse_expression_file` on one file, each with what `malloc` then returned. -/
def readings (contents : Text) (garbage : Nat → Nat → Nat → Int) : Nat → Table → Option Table
  | 0, t => some t
  | m + 1, t => (readings contents garbage m t).bind fun t =>
    parseExpressionFile t (garbage m) (some contents)

/-- Every expression is found under the number of its line, and there are no others. -/
structure Numbered (exprs : List (List Int)) (t : Table) : Prop where
  count : t.exprNum = exprs.length
  ids : ∀ (k : Nat) steps, exprs[k]? = some steps →
    ∃ i, findExpression t steps = some (some i) ∧ (t.exprTypes i).expressionId = k + 1

/-! ## One reading -/

lemma newline_not_mem_linesFrom (codes : ∀ steps ∈ exprs, ∀ step ∈ steps, IsCode step) (k : Nat) :
    ∀ line ∈ linesFrom k exprs, newline ∉ line := by
  induction exprs generalizing k with
  | nil => exact fun _ none => absurd none List.not_mem_nil
  | cons steps rest ih =>
    obtain ⟨stepCodes, restCodes⟩ := List.forall_mem_cons.mp codes
    unfold linesFrom
    exact List.forall_mem_cons.mpr ⟨newline_not_mem_exprLine stepCodes (k + 1), ih restCodes (k + 1)⟩

lemma parseText_linesFrom (codes : ∀ steps ∈ exprs, ∀ step ∈ steps, IsCode step)
    (few : ∀ steps ∈ exprs, steps.length ≤ exprSize) :
    ∀ (k : Nat) (t : Table), (∀ line ∈ linesFrom k exprs, line.length < lineRoom) →
      parseText t (fileOf (linesFrom k exprs)) = (addAll t exprs).map Prod.fst := by
  induction exprs with
  | nil => exact fun _ _ _ => rfl
  | cons steps rest ih =>
    intro k t fits
    obtain ⟨stepCodes, restCodes⟩ := List.forall_mem_cons.mp codes
    obtain ⟨stepFew, restFew⟩ := List.forall_mem_cons.mp few
    obtain ⟨lineFits, restFits⟩ := List.forall_mem_cons.mp fits
    unfold linesFrom
    rw [parseText_fileOf t (newline_not_mem_linesFrom codes k),
      parseText_fits stepCodes t (k + 1) stepFew lineFits.le]
    simp only [addAll]
    cases addExpression t steps with
    | none => rfl
    | some added =>
      rw [Option.map_some, Option.bind_some, ih restCodes restFew (k + 1) added.1 restFits]
      dsimp only
      cases addAll added.1 rest <;> rfl

lemma Listed.parse (listed : Listed exprs) (t : Table) (garbage : Nat → Nat → Int) :
    parseExpressionFile t garbage (some (fileFor exprs)) =
      (addAll { t with exprTypes := initializeExprStepsList garbage } exprs).map Prod.fst :=
  parseText_linesFrom listed.codes listed.few 0 _ listed.fits

/-! ## The numbers of one reading -/

structure Above (e : Nat) (t : Table) : Prop where
  sound : Sound t
  count : e ≤ t.exprNum
  ids : ∀ i, (t.exprTypes i).hash ≠ 0 → e < (t.exprTypes i).expressionId

lemma keys_allocated (t : Table) (garbage : Nat → Nat → Int) (i : Nat) :
    Table.keys { t with exprTypes := initializeExprStepsList garbage } i = none := rfl

lemma above_allocated (t : Table) (garbage : Nat → Nat → Int) :
    Above t.exprNum { t with exprTypes := initializeExprStepsList garbage } where
  sound := ⟨fun _ => keys_allocated t garbage, fun _ => Nat.zero_le _⟩
  count := le_rfl
  ids _ marked := absurd rfl marked

lemma Above.addExpression {e : Nat} {t' : Table} {steps : List Int} {r : Option Nat}
    (above : Above e t) (ran : addExpression t steps = some (t', r)) : Above e t' := by
  have sound := above.sound.addExpression ran
  obtain ⟨_, rfl | rfl | ⟨i, _, rfl⟩⟩ := addExpression_inv above.sound ran
  · exact above
  · exact ⟨sound, above.count, above.ids⟩
  · refine ⟨sound, above.count.trans (Nat.le_succ _), fun j marked => ?_⟩
    by_cases same : j = i
    · rw [same]
      simpa [store] using Nat.lt_succ_of_le above.count
    · simp only [store, Function.update_of_ne same] at marked ⊢
      exact above.ids j marked

lemma Above.addAll {e : Nat} {calls : List (List Int)} : ∀ {t t' : Table}
    {entries : List (Option ExprSteps)}, Above e t → addAll t calls = some (t', entries) →
    Above e t' ∧ t.exprNum ≤ t'.exprNum := by
  induction calls with
  | nil =>
    intro t t' entries above ran
    cases ran
    exact ⟨above, le_rfl⟩
  | cons steps rest ih =>
    intro t t' entries above ran
    obtain ⟨t1, r, entries', first, later, _⟩ := addAll_cons.mp ran
    obtain ⟨final, counted⟩ := ih (above.addExpression first) later
    refine ⟨final, le_trans ?_ counted⟩
    obtain ⟨_, rfl | rfl | ⟨i, _, rfl⟩⟩ := addExpression_inv above.sound first
    · exact le_rfl
    · exact le_rfl
    · exact Nat.le_succ _

lemma exprNum_lt_of_cons {t' : Table} {garbage : Nat → Nat → Int} {steps : List Int} {entries : List (Option ExprSteps)}
    (ran : addAll { t with exprTypes := initializeExprStepsList garbage } (steps :: rest) =
      some (t', entries)) : t.exprNum < t'.exprNum := by
  have above := above_allocated t garbage
  obtain ⟨t1, r, entries', first, later, _⟩ := addAll_cons.mp ran
  have counted := ((above.addExpression first).addAll later).2
  have one : t1.exprNum = t.exprNum + 1 := by
    cases (addExpression_returned above.sound.unused first).2 with
    | hit _ _ stored =>
      rw [keys_allocated] at stored
      cases stored
    | free => rfl
    | full _ taken =>
      obtain ⟨other, occupied, _⟩ := taken 0 (by decide)
      rw [keys_allocated] at occupied
      cases occupied
  omega

/-- What `find_expression` returns has the hash it looked for, and lies in the table. -/
lemma findExpression_some {steps : List Int} {i : Nat} (found : findExpression t steps = some (some i)) :
    i < exprListSize ∧ (t.exprTypes i).hash = calculateHash steps ∧ calculateHash steps ≠ 0 := by
  have used : t.exprNum ≠ 0 := by
    intro zero
    simp [findExpression, zero] at found
  have inside : 0 ≤ homeIndex (calculateHash steps) := by
    by_contra outside
    simp [findExpression, used, homeIndex?, outside] at found
  rw [findExpression_eq inside used] at found
  rcases lookup_cases t.keys (home_lt (key steps)) with ⟨c, _, eq, here⟩ | ⟨c, _, eq, _⟩ | ⟨eq, _⟩
  · rw [eq] at found
    cases found
    obtain ⟨nonzero, same⟩ := keys_eq_some.mp here
    have hash : calculateHash steps = _ := congrArg Prod.fst same
    exact ⟨after_lt (by decide) c, hash.symm, hash ▸ nonzero⟩
  · rw [eq] at found
    cases found
  · rw [eq] at found
    cases found

/-! ## Reading again -/

lemma readings_succ {contents : Text} {m : Nat} {u : Table} : readings contents garbage (m + 1) t = some u ↔
      ∃ before, readings contents garbage m t = some before ∧
        parseExpressionFile before (garbage m) (some contents) = some u :=
  Option.bind_eq_some_iff

/-- Every reading of a file with lines leaves a larger count. -/
lemma le_exprNum_readings {steps : List Int}
    (listed : Listed (steps :: rest)) (garbage : Nat → Nat → Nat → Int) (start : Table) (m : Nat) :
    ∀ t, readings (fileFor (steps :: rest)) garbage m start = some t → m ≤ t.exprNum := by
  induction m with
  | zero => exact fun t _ => Nat.zero_le _
  | succ m ih =>
    intro t ran
    obtain ⟨before, earlier, parsed⟩ := readings_succ.mp ran
    rw [listed.parse] at parsed
    obtain ⟨⟨t', entries⟩, entered, rfl⟩ := Option.map_eq_some_iff.mp parsed
    exact Nat.succ_le_of_lt ((ih before earlier).trans_lt (exprNum_lt_of_cons entered))

/-- **Behind an earlier call no file with lines is numbered as it says.** -/
theorem first_reading (listed : Listed exprs) (lines : exprs ≠ []) {start : Table} {m : Nat}
    (ran : readings (fileFor exprs) garbage (m + 1) start = some t) (numbered : Numbered exprs t) : m = 0 := by
  obtain ⟨steps, rest, rfl⟩ := List.exists_cons_of_ne_nil lines
  obtain ⟨before, earlier, parsed⟩ := readings_succ.mp ran
  have later := le_exprNum_readings listed garbage start m before earlier
  rw [listed.parse] at parsed
  obtain ⟨⟨t', entries⟩, entered, rfl⟩ := Option.map_eq_some_iff.mp parsed
  obtain ⟨above, _⟩ := (above_allocated before (garbage m)).addAll entered
  obtain ⟨i, found, number⟩ := numbered.ids 0 steps rfl
  obtain ⟨_, hash, nonzero⟩ := findExpression_some found
  have low : before.exprNum < 0 + 1 := number ▸ above.ids i (hash.trans_ne nonzero)
  omega

/-- A table that numbers every line has an entry for each. -/
lemma Numbered.length_le (numbered : Numbered exprs t) : exprs.length ≤ exprListSize := by
  have entry : ∀ k : Fin exprs.length, ∃ i : Fin exprListSize,
      (t.exprTypes i).expressionId = k + 1 := by
    intro k
    obtain ⟨i, found, number⟩ := numbered.ids k exprs[k] (List.getElem?_eq_getElem k.isLt)
    exact ⟨⟨i, (findExpression_some found).1⟩, number⟩
  choose slot spec using entry
  have injective : Function.Injective slot := by
    intro k l same
    have first := spec k
    have second := spec l
    rw [same] at first
    exact Fin.ext (by omega)
  simpa using Fintype.card_le_of_injective slot injective

/-- **A first reading** numbers as many expressions as the table has entries, when all of
them leave a mark in it. -/
theorem numbered_of_marked (listed : Listed exprs)
    (room : exprs.length ≤ exprListSize) (marked : ∀ steps ∈ exprs, Marked steps) (garbage : Nat → Nat → Int) :
    ∃ t entries, addAll (initial garbage) exprs = some (t, entries) ∧ Numbered exprs t := by
  obtain ⟨t, entries, ran, refines⟩ := addAll_refines (refines_initial garbage)
    (fun _ none => absurd none List.not_mem_nil) listed.few marked
  rw [foldl_register (by simpa using listed.distinct) (by simpa using room),
    List.nil_append] at refines
  refine ⟨t, entries, ran, refines.count, fun k steps line => ?_⟩
  have mark := marked steps (List.mem_of_getElem? line)
  obtain ⟨i, inside, stored, number⟩ := refines.logged k steps line mark.nonzero
  refine ⟨i, ((refines.find mark).1 i).mpr ⟨inside, ?_⟩, number⟩
  exact (keys_eq_key mark.nonzero).mp stored

lemma readings_nil (garbage : Nat → Nat → Nat → Int) (start : Table) (m : Nat) :
    ∃ t, readings (fileFor []) garbage m start = some t ∧ t.exprNum = start.exprNum := by
  induction m with
  | zero => exact ⟨start, rfl, rfl⟩
  | succ m ih =>
    obtain ⟨t, ran, count⟩ := ih
    exact ⟨_, readings_succ.mpr ⟨t, ran, rfl⟩, count⟩

/-- **When a file is numbered as its lines say**, after `earlier` calls in the same process:
there was no such call, or the file has no lines; there are no more lines than entries;
and every expression leaves a mark in the table. -/
theorem reload_numbered_iff (exprs : List (List Int)) (listed : Listed exprs)
    (garbage : Nat → Nat → Nat → Int) (unallocated : Nat → Nat → Int) (earlier : Nat) :
    (∃ t, readings (fileFor exprs) garbage (earlier + 1) (initial unallocated) = some t ∧ Numbered exprs t) ↔
    (earlier = 0 ∨ exprs = []) ∧ exprs.length ≤ exprListSize ∧ ∀ steps ∈ exprs, Marked steps := by
  constructor
  · rintro ⟨t, ran, numbered⟩
    have first : earlier = 0 ∨ exprs = [] := by
      by_cases none : exprs = []
      · exact .inr none
      · exact .inl (first_reading listed none ran numbered)
    obtain ⟨before, _, parsed⟩ := readings_succ.mp ran
    rw [listed.parse] at parsed
    obtain ⟨⟨t', entries⟩, entered, rfl⟩ := Option.map_eq_some_iff.mp parsed
    refine ⟨first, numbered.length_le, fun steps member => ?_⟩
    obtain ⟨k, line⟩ := List.mem_iff_getElem?.mp member
    obtain ⟨i, found, _⟩ := numbered.ids k steps line
    exact ⟨addAll_inside entered steps member, (findExpression_some found).2.2⟩
  · rintro ⟨rfl | rfl, room, marked⟩
    · obtain ⟨t, entries, ran, numbered⟩ := numbered_of_marked listed room marked (garbage 0)
      refine ⟨t, readings_succ.mpr ⟨_, rfl, ?_⟩, numbered⟩
      rw [listed.parse]
      exact congrArg (Option.map Prod.fst) ran
    · obtain ⟨t, ran, count⟩ := readings_nil garbage (initial unallocated) (earlier + 1)
      exact ⟨t, ran, count, fun k steps none => by cases none⟩

def twoLines : List (List Int) := [[3, 6, 0], [16, 14, 0]]

lemma twoLines_listed : Listed twoLines where
  codes := by decide
  few := by decide
  fits := by decide
  distinct := by decide

theorem reload_numbered_twoLines : Listed twoLines ∧
    ∃ t, readings (fileFor twoLines) (fun _ _ _ => 0) 1 (initial fun _ _ => 0) = some t ∧ Numbered twoLines t :=
  ⟨twoLines_listed, (reload_numbered_iff twoLines twoLines_listed _ _ 0).mpr ⟨.inl rfl, by decide, by
      rintro steps member
      have positive : ∀ steps ∈ twoLines, 0 < calculateHash steps := by decide
      exact marked_of_positive (positive steps member)⟩⟩

/-- After one earlier call its lines have other numbers. -/
theorem twoLines_again_misnumbered :
    ¬ ∃ t, readings (fileFor twoLines) (fun _ _ _ => 0) 2 (initial fun _ _ => 0) = some t ∧ Numbered twoLines t := by
  rintro ⟨t, ran, numbered⟩
  have first : 1 = 0 := first_reading twoLines_listed (by decide) ran numbered
  exact absurd first (by decide)

end Hex.Kernel.ExprFile
