/-
# Theory.RunningMin — the earliest minimum of a growing sequence

A running minimum that is replaced only by a strictly smaller value stands, at
every length, at the earliest position of the smallest value seen so far.
Positions are counted from one.

`Fastest` is the same for values that come with a label, in the order of a list:
the label that is kept is one of a smallest value. `FirstLeast` is the same for a list
and a total preorder, where different values may be equally small.
-/
import Mathlib.Order.Lattice

namespace Hex.Theory.RunningMin

variable {T : Type} [LinearOrder T] {f : Nat → T} {n m : Nat}

/-- `m` is the earliest position of the smallest of `f 1, …, f n`. -/
structure Earliest (f : Nat → T) (n m : Nat) : Prop where
  one_le : 1 ≤ m
  le : m ≤ n
  least : ∀ i, 1 ≤ i → i ≤ n → f m ≤ f i
  first : ∀ i, 1 ≤ i → i < m → f m < f i

lemma earliest_one (f : Nat → T) : Earliest f 1 1 where
  one_le := Nat.le_refl 1
  le := Nat.le_refl 1
  least i low high := by rw [Nat.le_antisymm high low]
  first i low high := absurd low (Nat.not_le.mpr high)

lemma Earliest.keep (h : Earliest f n m) (larger : ¬ f (n + 1) < f m) : Earliest f (n + 1) m where
  one_le := h.one_le
  le := Nat.le_succ_of_le h.le
  least i low high := by
    rcases Nat.lt_or_eq_of_le high with below | rfl
    · exact h.least i low (Nat.le_of_lt_succ below)
    · exact le_of_not_gt larger
  first := h.first

lemma Earliest.replace (h : Earliest f n m) (smaller : f (n + 1) < f m) : Earliest f (n + 1) (n + 1) where
  one_le := Nat.le_add_left 1 n
  le := Nat.le_refl (n + 1)
  least i low high := by
    rcases Nat.lt_or_eq_of_le high with below | rfl
    · exact le_trans (le_of_lt smaller) (h.least i low (Nat.le_of_lt_succ below))
    · exact le_refl _
  first i low high := lt_of_lt_of_le smaller (h.least i low (Nat.le_of_lt_succ high))

/-! ## With labels -/

/-- `label` came with `value`, and no value is smaller. -/
structure Fastest {L : Type} (tried : List (L × T)) (label : L) (value : T) : Prop where
  mem : (label, value) ∈ tried
  least : ∀ c ∈ tried, value ≤ c.2

section Labels

variable {L : Type} {tried : List (L × T)} {label other : L} {value next : T}

lemma fastest_one (label : L) (value : T) : Fastest [(label, value)] label value where
  mem := List.mem_singleton.mpr rfl
  least c member := by rw [List.mem_singleton.mp member]

lemma Fastest.keep (h : Fastest tried label value) (larger : ¬ next < value) :
    Fastest (tried ++ [(other, next)]) label value where
  mem := List.mem_append_left _ h.mem
  least := by
    intro c member
    obtain old | new := List.mem_append.mp member
    · exact h.least c old
    · rw [List.mem_singleton.mp new]
      exact le_of_not_gt larger

lemma Fastest.replace (h : Fastest tried label value) (smaller : next < value) :
    Fastest (tried ++ [(other, next)]) other next where
  mem := List.mem_append_right _ (List.mem_singleton.mpr rfl)
  least := by
    intro c member
    obtain old | new := List.mem_append.mp member
    · exact le_trans (le_of_lt smaller) (h.least c old)
    · rw [List.mem_singleton.mp new]

end Labels

/-! ## In a preorder -/

/-- The values before `r` are all larger, and none behind it is smaller. -/
structure FirstLeast {V : Type} (le : V → V → Prop) (before : List V) (r : V) (behind : List V) : Prop where
  larger : ∀ b ∈ before, ¬ le b r
  least : ∀ e ∈ before ++ r :: behind, le r e

section Preorder

variable {V : Type} {le : V → V → Prop} {before behind : List V} {r d : V}

lemma firstLeast_one (refl : le d d) : FirstLeast le [] d [] :=
  ⟨nofun, fun _ member => List.mem_singleton.mp member ▸ refl⟩

lemma FirstLeast.keep (first : FirstLeast le before r behind) (larger : le r d) :
    FirstLeast le before r (behind ++ [d]) where
  larger := first.larger
  least e member := by
    rw [← List.cons_append, ← List.append_assoc, List.mem_append, List.mem_singleton] at member
    exact member.elim (first.least e) fun new => new ▸ larger

lemma FirstLeast.replace (first : FirstLeast le before r behind)
    (below : ∀ b ∈ before ++ r :: behind, ¬ le b d → le d b)
    (trans : ∀ b ∈ before ++ r :: behind, le r b → le b d → le r d) (refl : le d d) (smaller : ¬ le r d) :
    FirstLeast le (before ++ r :: behind) d [] := by
  have larger : ∀ b ∈ before ++ r :: behind, ¬ le b d :=
    fun b member under => smaller (trans b member (first.least b member) under)
  refine ⟨larger, fun e member => ?_⟩
  rcases List.mem_append.mp member with old | new
  · exact below e old (larger e old)
  · exact List.mem_singleton.mp new ▸ refl

lemma FirstLeast.find? [DecidableRel le] (first : FirstLeast le before r behind) :
    ((before ++ r :: behind).find? fun d => (before ++ r :: behind).all fun e => le d e) = some r := by
  rw [List.find?_append, List.find?_eq_none.mpr, Option.none_or, List.find?_cons_of_pos]
  · exact List.all_eq_true.mpr fun e member => decide_eq_true (first.least e member)
  · intro b member all
    rw [List.all_eq_true] at all
    exact first.larger b member (of_decide_eq_true (all r (List.mem_append_right _ List.mem_cons_self)))

end Preorder

end Hex.Theory.RunningMin
