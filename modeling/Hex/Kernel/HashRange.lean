/-
# Kernel.HashRange — how long an expression the hash is good for

`calculate_hash` multiplies by 3 for every step and adds the code of the step, in a
`long long`. The table relies on three things: that nothing overflows, that no hash
is 0, and that the remainder by the size of the table is an index into it.

`growth` is the hash without a bound. All three hold exactly while it stays below
2^63 (`hashSound_iff`): up to 35 steps always, from 38 steps on never, and in
between it depends on the codes.
-/
import Hex.Kernel.ExprTable
import Hex.Kernel.OpNames
import Mathlib.Tactic.Ring
import Mathlib.Tactic.Linarith

namespace Hex.Kernel.ExprTable

open OpNames

/-- A value a `long long` can hold. -/
def IsLongLong (x : Int) : Prop := -2 ^ 63 ≤ x ∧ x < 2 ^ 63

instance : DecidablePred IsLongLong := fun x => by
  unfold IsLongLong
  infer_instance

/-- No product and no sum of the loop in `calculate_hash` overflows. -/
def NoOverflow : Int → List Int → Prop
  | _, [] => True
  | hash, step :: rest =>
    IsLongLong (hash * 3) ∧ IsLongLong (hash * 3 + step) ∧ NoOverflow (hash * 3 + step) rest

/-- The loop of `calculate_hash` in unbounded integers. -/
def growth (hash : Int) (steps : List Int) : Int :=
  steps.foldl (fun hash step => hash * 3 + step) hash

/-- What the table relies on in the hash of an expression. -/
structure HashSound (steps : List Int) : Prop where
  noOverflow : NoOverflow 17 steps
  /-- A hash is never taken for the mark of an empty entry. -/
  nonzero : calculateHash steps ≠ 0
  /-- The home index lies in the table. -/
  home : 0 ≤ homeIndex (calculateHash steps) ∧ homeIndex (calculateHash steps) ≤ 255

/-! ## The hash without a bound -/

section Growth

variable {steps : List Int}

lemma growth_cons (hash step : Int) (steps : List Int) :
    growth hash (step :: steps) = growth (hash * 3 + step) steps := rfl

lemma le_growth (hash : Int) (codes : ∀ step ∈ steps, IsCode step) (nonneg : 0 ≤ hash) :
    hash * 3 ^ steps.length ≤ growth hash steps := by
  induction steps generalizing hash with
  | nil => simp [growth]
  | cons step steps ih =>
    obtain ⟨low, _⟩ := codes step List.mem_cons_self
    have next := ih (hash * 3 + step) (fun s member => codes s (List.mem_cons_of_mem step member)) (by omega)
    have power : (0 : Int) ≤ 3 ^ steps.length := by positivity
    calc hash * 3 ^ (step :: steps).length = hash * 3 * 3 ^ steps.length := by
          rw [List.length_cons]
          ring
      _ ≤ (hash * 3 + step) * 3 ^ steps.length := by
          apply mul_le_mul_of_nonneg_right _ power
          omega
      _ ≤ growth hash (step :: steps) := next

lemma hash_le_growth (hash : Int) (codes : ∀ step ∈ steps, IsCode step) (nonneg : 0 ≤ hash) :
    hash ≤ growth hash steps := by
  have power : (1 : Int) ≤ 3 ^ steps.length := one_le_pow₀ (by decide)
  calc hash = hash * 1 := (mul_one hash).symm
    _ ≤ hash * 3 ^ steps.length := mul_le_mul_of_nonneg_left power nonneg
    _ ≤ growth hash steps := le_growth hash codes nonneg

/-- The last value is the largest one, so that it alone decides. -/
lemma noOverflow_iff (hash : Int) (codes : ∀ step ∈ steps, IsCode step) (nonneg : 0 ≤ hash)
    (small : hash < 2 ^ 63) : NoOverflow hash steps ↔ growth hash steps < 2 ^ 63 := by
  induction steps generalizing hash with
  | nil => exact iff_of_true trivial small
  | cons step steps ih =>
    obtain ⟨low, _⟩ := codes step List.mem_cons_self
    have others : ∀ s ∈ steps, IsCode s := fun s member =>
      codes s (List.mem_cons_of_mem step member)
    have last := hash_le_growth (hash * 3 + step) others (by omega)
    rw [growth_cons]
    constructor
    · rintro ⟨_, ⟨_, high⟩, rest⟩
      exact (ih (hash * 3 + step) others (by omega) high).mp rest
    · intro below
      have high : hash * 3 + step < 2 ^ 63 := last.trans_lt below
      exact ⟨⟨by omega, by omega⟩, ⟨by omega, high⟩, (ih (hash * 3 + step) others (by omega) high).mpr below⟩

lemma foldl_bmod (hash : Int) (computed : NoOverflow hash steps) :
    steps.foldl (fun hash step => (hash * 3 + step).bmod (2 ^ 64)) hash = growth hash steps := by
  induction steps generalizing hash with
  | nil => rfl
  | cons step steps ih =>
    obtain ⟨_, ⟨low, high⟩, rest⟩ := computed
    have exactly : (hash * 3 + step).bmod (2 ^ 64) = hash * 3 + step := by
      apply Int.bmod_eq_of_le
      · exact low
      · exact high
    rw [List.foldl_cons, exactly, growth_cons]
    exact ih (hash * 3 + step) rest

end Growth

/-! ## What the table relies on -/

/-- **The hash of an expression is sound exactly while it stays below 2^63.** -/
theorem hashSound_iff (steps : List Int) (codes : ∀ step ∈ steps, IsCode step) :
    HashSound steps ↔ growth 17 steps < 2 ^ 63 := by
  have exactly := noOverflow_iff 17 codes (by decide) (by decide)
  refine ⟨fun sound => exactly.mp sound.noOverflow, fun below => ?_⟩
  have computed := exactly.mpr below
  have value : calculateHash steps = growth 17 steps := foldl_bmod 17 computed
  have positive : 17 ≤ calculateHash steps := value ▸ hash_le_growth 17 codes (by decide)
  refine ⟨computed, by omega, homeIndex_of_nonneg (by omega), ?_⟩
  have inside := homeIndex_lt (calculateHash steps)
  exact Int.le_of_lt_add_one inside

/-- Seventeen steps of the largest code. -/
theorem hashSound_seventeen : (∀ step ∈ List.replicate 17 (90 : Int), IsCode step) ∧
    HashSound (List.replicate 17 90) := by
  have codes : ∀ step ∈ List.replicate 17 (90 : Int), IsCode step := by decide
  exact ⟨codes, (hashSound_iff _ codes).mpr (by decide)⟩

/-- A sequence whose hash is a multiple of 2^64. -/
def zeroHash : List Int :=
  [71, 2, 2, 0, 0, 2, 2, 1, 2, 2, 1, 2, 0, 1, 0, 1, 2, 1, 1, 0, 2, 0, 1, 2, 0, 2, 1, 0, 2, 1, 0, 2, 1,
    1, 2, 2, 1]

/-- With 36 steps the hash can overflow and point in front of the table, with 37 steps it
can be the mark of an empty entry. -/
theorem long_hash_unsound :
    ((∀ step ∈ List.replicate 36 (90 : Int), IsCode step) ∧ ¬ NoOverflow 17 (List.replicate 36 90) ∧
      homeIndex (calculateHash (List.replicate 36 90)) = -143) ∧
    ((∀ step ∈ zeroHash, IsCode step) ∧ zeroHash.length = 37 ∧ calculateHash zeroHash = 0) := by
  have codes : ∀ step ∈ List.replicate 36 (90 : Int), IsCode step := by decide
  refine ⟨⟨codes, ?_, by decide +kernel⟩, by decide +kernel, rfl, by decide +kernel⟩
  rw [noOverflow_iff 17 codes (by decide) (by decide)]
  decide

end Hex.Kernel.ExprTable
