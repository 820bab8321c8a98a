/-
# Theory.ProbeTable — open addressing with linear probing

A table of `size` slots in which a key is looked for from its home slot on, one
slot after the other and around the end, until it is found, an empty slot is
met, or every slot has been seen. Only the keys matter here: `slots i` is the
key in slot `i`, or `none` when the slot is empty.

`Reached` is the invariant of such a table: every stored key lies on its own
probe path with no empty slot before it, and no key is stored twice. It makes
`lookup` exact (`lookup_hit_iff`) and is kept by storing a key in the empty slot
its own lookup ended in (`Reached.insert`).
-/
import Mathlib.Logic.Function.Basic
import Mathlib.Data.Nat.ModEq
import Mathlib.Tactic.Common

namespace Hex.Theory.ProbeTable

variable {K : Type} [DecidableEq K]

/-- The slot `d` steps after slot `start`, around a table of `size` slots. -/
def after (size start d : Nat) : Nat := (start + d) % size

/-- How a search for a key ends. -/
inductive Outcome where
  | hit (i : Nat)
  | free (i : Nat)
  | full
  deriving DecidableEq, Repr

/-- Look for `k` from slot `i` on, in at most `n` slots. -/
def probe (size : Nat) (slots : Nat → Option K) (k : K) : Nat → Nat → Outcome
  | 0, _ => .full
  | n + 1, i =>
    match slots i with
    | none => .free i
    | some other => if other = k then .hit i else probe size slots k n ((i + 1) % size)

/-- Look for `k` in the whole table. -/
def lookup (size : Nat) (home : K → Nat) (slots : Nat → Option K) (k : K) : Outcome :=
  probe size slots k size (home k)

section Paths

variable {size start : Nat}

lemma after_lt (some : 0 < size) (d : Nat) : after size start d < size :=
  Nat.mod_lt _ some

lemma after_zero (inside : start < size) : after size start 0 = start :=
  Nat.mod_eq_of_lt inside

lemma after_succ (d : Nat) : (after size start d + 1) % size = after size start (d + 1) :=
  Nat.mod_add_mod (start + d) size 1

/-- A probe path comes back to its start after `size` steps and not before. -/
lemma after_eq_start_iff (inside : start < size) {d : Nat} (moved : 0 < d) (round : d ≤ size) :
    after size start d = start ↔ d = size := by
  constructor
  · intro back
    by_cases wraps : start + d < size
    · rw [after, Nat.mod_eq_of_lt wraps] at back
      omega
    · rw [after, Nat.mod_eq_sub_mod (by omega), Nat.mod_eq_of_lt (by omega)] at back
      omega
  · rintro rfl
    rw [after, Nat.add_mod_right, Nat.mod_eq_of_lt inside]

lemma after_surjective (inside : start < size) {i : Nat} (hi : i < size) :
    ∃ d, d < size ∧ i = after size start d := by
  by_cases ahead : start ≤ i
  · refine ⟨i - start, by omega, ?_⟩
    rw [after, show start + (i - start) = i by omega, Nat.mod_eq_of_lt hi]
  · refine ⟨i + size - start, by omega, ?_⟩
    rw [after, show start + (i + size - start) = i + size by omega, Nat.add_mod_right,
      Nat.mod_eq_of_lt hi]

end Paths

/-- The first `c` slots of the path hold other keys than `k`. -/
def Passes (size start : Nat) (slots : Nat → Option K) (k : K) (c : Nat) : Prop :=
  ∀ b, b < c → ∃ other, slots (after size start b) = some other ∧ other ≠ k

section Probe

variable {size start : Nat} {slots : Nat → Option K} {k : K}

omit [DecidableEq K] in
lemma Passes.succ {c : Nat} (passed : Passes size start slots k c) {other : K}
    (here : slots (after size start c) = some other) (ne : other ≠ k) : Passes size start slots k (c + 1) := by
  intro b hb
  by_cases last : b = c
  · subst last
    exact ⟨other, here, ne⟩
  · exact passed b (by omega)

/-- The three ways a search can end, from a place on the path that it reached. -/
lemma probe_cases (size start : Nat) (slots : Nat → Option K) (k : K) (n d : Nat) (total : d + n = size)
    (passed : Passes size start slots k d) :
    (∃ c, c < size ∧ probe size slots k n (after size start d) = .hit (after size start c) ∧
      slots (after size start c) = some k ∧ Passes size start slots k c) ∨
    (∃ c, c < size ∧ probe size slots k n (after size start d) = .free (after size start c) ∧
      slots (after size start c) = none ∧ Passes size start slots k c) ∨
    (probe size slots k n (after size start d) = .full ∧ Passes size start slots k size) := by
  induction n generalizing d with
  | zero =>
    have all : d = size := by omega
    exact .inr (.inr ⟨rfl, all ▸ passed⟩)
  | succ n ih =>
    cases here : slots (after size start d) with
    | none => exact .inr (.inl ⟨d, by omega, by simp [probe, here], here, passed⟩)
    | some other =>
      by_cases same : other = k
      · subst same
        exact .inl ⟨d, by omega, by simp [probe, here], here, passed⟩
      · have step : probe size slots k (n + 1) (after size start d) =
            probe size slots k n (after size start (d + 1)) := by
          rw [← after_succ d]
          simp [probe, here, same]
        rw [step]
        exact ih (d + 1) (by omega) (passed.succ here same)

end Probe

/-- Every key lies on its own probe path with no empty slot before it, and in
one slot only. -/
structure Reached (size : Nat) (home : K → Nat) (slots : Nat → Option K) : Prop where
  path : ∀ i k, i < size → slots i = some k →
    ∃ d, d < size ∧ i = after size (home k) d ∧ ∀ b, b < d → slots (after size (home k) b) ≠ none
  distinct : ∀ i j k, i < size → j < size → slots i = some k → slots j = some k → i = j

section Lookup

variable {size : Nat} {home : K → Nat} {slots : Nat → Option K} {k : K}

omit [DecidableEq K] in
lemma reached_empty : Reached size home (fun _ => (none : Option K)) where
  path _ _ _ stored := by cases stored
  distinct _ _ _ _ _ stored := by cases stored

lemma lookup_cases (slots : Nat → Option K) (inside : home k < size) :
    (∃ c, c < size ∧ lookup size home slots k = .hit (after size (home k) c) ∧ slots (after size (home k) c) = some k) ∨
    (∃ c, c < size ∧ lookup size home slots k = .free (after size (home k) c) ∧
      slots (after size (home k) c) = none ∧ Passes size (home k) slots k c) ∨
    (lookup size home slots k = .full ∧ Passes size (home k) slots k size) := by
  have cases := probe_cases size (home k) slots k size 0 (Nat.zero_add size) (fun b hb => absurd hb (Nat.not_lt_zero b))
  rw [after_zero inside] at cases
  rcases cases with ⟨c, hc, eq, here, _⟩ | free | full
  · exact .inl ⟨c, hc, eq, here⟩
  · exact .inr (.inl free)
  · exact .inr (.inr full)

omit [DecidableEq K] in
lemma Reached.absent (reached : Reached size home slots) {c : Nat} (passed : Passes size (home k) slots k c)
    (empty : slots (after size (home k) c) = none) {i : Nat} (hi : i < size) : slots i ≠ some k := by
  intro stored
  obtain ⟨d, _, place, nonempty⟩ := reached.path i k hi stored
  rcases Nat.lt_trichotomy d c with before | same | behind
  · obtain ⟨other, there, ne⟩ := passed d before
    rw [← place, stored] at there
    exact ne (Option.some.inj there).symm
  · rw [← same, ← place, stored] at empty
    cases empty
  · exact nonempty c behind empty

omit [DecidableEq K] in
lemma Passes.absent (inside : home k < size) (passed : Passes size (home k) slots k size)
    {i : Nat} (hi : i < size) : ∃ other, slots i = some other ∧ other ≠ k := by
  obtain ⟨d, hd, rfl⟩ := after_surjective inside hi
  exact passed d hd

/-- **A lookup is exact**: it hits slot `i` if and only if the key is there. -/
theorem lookup_hit_iff (reached : Reached size home slots) (inside : home k < size) {i : Nat} :
    lookup size home slots k = .hit i ↔ i < size ∧ slots i = some k := by
  have some : 0 < size := Nat.zero_lt_of_lt inside
  constructor
  · intro hit
    rcases lookup_cases slots inside with ⟨c, _, eq, here⟩ | ⟨c, _, eq, _⟩ | ⟨eq, _⟩
    · rw [hit] at eq
      cases eq
      exact ⟨after_lt some c, here⟩
    · rw [hit] at eq
      cases eq
    · rw [hit] at eq
      cases eq
  · rintro ⟨hi, stored⟩
    rcases lookup_cases slots inside with ⟨c, _, eq, here⟩ | ⟨c, _, _, empty, passed⟩ | ⟨_, passed⟩
    · rw [eq, reached.distinct _ _ k (after_lt some c) hi here stored]
    · exact absurd stored (reached.absent passed empty hi)
    · obtain ⟨other, there, ne⟩ := passed.absent inside hi
      rw [stored] at there
      exact absurd (Option.some.inj there).symm ne

lemma lookup_free (inside : home k < size) {i : Nat} (free : lookup size home slots k = .free i) :
    ∃ c, c < size ∧ i = after size (home k) c ∧ slots i = none ∧ Passes size (home k) slots k c := by
  rcases lookup_cases slots inside with ⟨c, _, eq, _⟩ | ⟨c, hc, eq, empty, passed⟩ | ⟨eq, _⟩
  · rw [free] at eq
    cases eq
  · rw [free] at eq
    cases eq
    exact ⟨c, hc, rfl, empty, passed⟩
  · rw [free] at eq
    cases eq

/-- A search that finds neither the key nor an empty slot has seen other keys in
every slot. -/
lemma lookup_full (inside : home k < size) (full : lookup size home slots k = .full) {i : Nat}
    (hi : i < size) : ∃ other, slots i = some other ∧ other ≠ k := by
  rcases lookup_cases slots inside with ⟨c, _, eq, _⟩ | ⟨c, _, eq, _⟩ | ⟨_, passed⟩
  · rw [full] at eq
    cases eq
  · rw [full] at eq
    cases eq
  · exact passed.absent inside hi

/-- **Storing a key in the empty slot its lookup ended in keeps the invariant.** -/
theorem Reached.insert (reached : Reached size home slots) (inside : home k < size) {i : Nat}
    (free : lookup size home slots k = .free i) : Reached size home (Function.update slots i (some k)) := by
  obtain ⟨c, hc, place, empty, passed⟩ := lookup_free inside free
  have absent : ∀ j, j < size → slots j ≠ some k := fun j hj =>
    reached.absent passed (place ▸ empty) hj
  -- an occupied slot stays occupied
  have kept : ∀ j, slots j ≠ none → Function.update slots i (some k) j ≠ none := by
    intro j occupied
    by_cases same : j = i
    · rw [same, Function.update_self]
      exact Option.some_ne_none k
    · rwa [Function.update_of_ne same]
  constructor
  · intro j k' hj stored
    by_cases same : j = i
    · rw [same, Function.update_self] at stored
      cases stored
      refine ⟨c, hc, same.trans place, fun b hb => kept _ ?_⟩
      obtain ⟨other, there, _⟩ := passed b hb
      rw [there]
      exact Option.some_ne_none other
    · rw [Function.update_of_ne same] at stored
      obtain ⟨d, hd, there, nonempty⟩ := reached.path j k' hj stored
      exact ⟨d, hd, there, fun b hb => kept _ (nonempty b hb)⟩
  · intro a b k' ha hb first second
    by_cases sameA : a = i <;> by_cases sameB : b = i
    · rw [sameA, sameB]
    · rw [sameA, Function.update_self] at first
      rw [Function.update_of_ne sameB] at second
      cases first
      exact absurd second (absent b hb)
    · rw [Function.update_of_ne sameA] at first
      rw [sameB, Function.update_self] at second
      cases second
      exact absurd first (absent a ha)
    · rw [Function.update_of_ne sameA] at first
      rw [Function.update_of_ne sameB] at second
      exact reached.distinct a b k' ha hb first second

end Lookup

end Hex.Theory.ProbeTable
