/-
# Theory.Blocks — the first elements of blocks

A list falls into maximal blocks of consecutive elements that are related to the one before
(`List.splitBy`). `starts` finds the first element of each block in one pass, with the element
before at hand (`heads_splitBy`). Where the blocks of one relation are cut into those of a finer one,
`flatMap_starts_eq_iff` says when this makes no difference for what is taken from their first elements.
-/
import Mathlib.Data.List.SplitBy

namespace Hex.Theory.Blocks

variable {A : Type} (R : A → A → Bool)

/-- The elements that are not related to the one before them; `prev` is before the first. -/
def starts (prev : Option A) : List A → List A
  | [] => []
  | a :: l => if prev.any (R · a) then starts (some a) l else a :: starts (some a) l

lemma heads_loop (l : List A) : ∀ (a : A) (g : List A) (gs : List (List A)),
    (List.splitBy.loop R l a g gs).filterMap List.head? =
      gs.reverse.filterMap List.head? ++ (g.reverse ++ [a]).head?.toList ++ starts R (some a) l := by
  induction l with
  | nil =>
    intro a g gs
    cases first : (g.reverse ++ [a]).head? <;> simp [List.splitBy.loop, starts, first]
  | cons b l ih =>
    intro a g gs
    rw [List.splitBy.loop, starts, Option.any_some]
    cases R a b with
    | true =>
      have same : ((a :: g).reverse ++ [b]).head? = (g.reverse ++ [a]).head? := by
        rw [List.reverse_cons]
        generalize g.reverse = before
        cases before <;> rfl
      dsimp only
      rw [ih, same]
      rfl
    | false =>
      dsimp only
      rw [ih]
      cases first : (g.reverse ++ [a]).head? <;> simp [first]

lemma heads_splitBy (l : List A) : (l.splitBy R).filterMap List.head? = starts R none l := by
  cases l with
  | nil => rfl
  | cons a l =>
    rw [List.splitBy, heads_loop]
    rfl

lemma starts_concat (a : A) (l : List A) : ∀ prev : Option A,
    starts R prev (l ++ [a]) = starts R prev l ++ if (l.getLast?.or prev).any (R · a) then [] else [a] := by
  induction l with
  | nil =>
    intro prev
    rfl
  | cons b l ih =>
    intro prev
    have last : (b :: l).getLast?.or prev = l.getLast?.or (some b) := by
      cases l <;> simp [List.getLast?_cons]
    rw [List.cons_append, starts, starts, ih, last]
    split <;> simp

/-! ## Two relations -/

section Finer

variable {R} {R' : A → A → Bool} {B : Type} (W : A → List B) (finer : ∀ a b, R a b = true → R' a b = true)

include finer

/-- The blocks of a relation start where blocks of a finer one start. -/
lemma flatMap_starts_sublist (l : List A) : ∀ prev : Option A,
    ((starts R' prev l).flatMap W).Sublist ((starts R prev l).flatMap W) := by
  induction l with
  | nil => exact fun _ => List.Sublist.refl []
  | cons b l ih =>
    intro prev
    have rest := ih (some b)
    rw [starts, starts]
    cases coarse : prev.any (R' · b) with
    | true =>
      rw [if_pos rfl]
      split
      · exact rest
      · exact rest.trans (List.sublist_append_right (W b) _)
    | false =>
      have fine : prev.any (R · b) = false := by
        cases prev with
        | none => rfl
        | some a => exact Bool.eq_false_iff.mpr fun same => by simp [finer a b same] at coarse
      rw [fine, if_neg Bool.false_ne_true, if_neg Bool.false_ne_true]
      exact (List.Sublist.refl (W b)).append rest

lemma flatMap_starts_eq_iff (l : List A) : ∀ a : A,
    (starts R (some a) l).flatMap W = (starts R' (some a) l).flatMap W ↔
      ∀ x y, [x, y] <:+: a :: l → R' x y = true → R x y = false → W y = [] := by
  induction l with
  | nil =>
    intro a
    refine ⟨fun _ x y inside => ?_, fun _ => rfl⟩
    have le := inside.length_le
    simp at le
  | cons b l ih =>
    intro a
    have pairs : (∀ x y, [x, y] <:+: a :: b :: l → R' x y = true → R x y = false → W y = []) ↔
        (R' a b = true → R a b = false → W b = []) ∧
          ∀ x y, [x, y] <:+: b :: l → R' x y = true → R x y = false → W y = [] := by
      simp only [List.infix_cons_iff (a := a), List.cons_prefix_cons, List.nil_prefix, and_true]
      constructor
      · exact fun all => ⟨all a b (Or.inl ⟨rfl, rfl⟩), fun x y inside => all x y (Or.inr inside)⟩
      · rintro ⟨here, later⟩ x y (⟨rfl, rfl⟩ | inside)
        · exact here
        · exact later x y inside
    rw [pairs, ← ih b, starts, starts, Option.any_some, Option.any_some]
    cases coarse : R' a b with
    | false =>
      have fine : R a b = false := Bool.eq_false_iff.mpr fun same => by simp [finer a b same] at coarse
      simp [fine]
    | true =>
      cases fine : R a b with
      | true => simp
      | false =>
        -- `b` starts a block of the finer relation only
        have sublist := (flatMap_starts_sublist W finer l (some b)).length_le
        simp only [Bool.false_eq_true, if_false, if_true, List.flatMap_cons, forall_const]
        constructor
        · intro same
          have none : W b = [] := by
            have lengths := congrArg List.length same
            rw [List.length_append] at lengths
            exact List.eq_nil_of_length_eq_zero (by omega)
          rw [none, List.nil_append] at same
          exact ⟨none, same⟩
        · rintro ⟨none, same⟩
          rw [none, List.nil_append, same]

end Finer

end Hex.Theory.Blocks
