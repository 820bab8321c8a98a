/-
# Theory.Ownership — objects that are each in one place

Objects are numbered as they are created. `Shared n used lost` says that each of the first
`n` is in exactly one of two lists, once: `used` is where somebody still answers for it,
`lost` where nobody does. Then every object is answered for once exactly when none is
lost (`Shared.once_iff`).
-/
import Mathlib.Data.List.Count
import Mathlib.Data.List.Range
import Mathlib.Data.List.Perm.Basic

namespace Hex.Theory.Ownership

/-- Each of `n` objects is in `used` or in `lost`, once. -/
def Shared (n : Nat) (used lost : List Nat) : Prop := (used ++ lost).Perm (List.range n)

variable {n : Nat} {used lost moved : List Nat}

lemma shared_zero : Shared 0 [] [] := List.Perm.refl []

lemma Shared.congr {used' : List Nat} (h : Shared n used lost) (same : used'.Perm used) :
    Shared n used' lost := (same.append_right lost).trans h

/-- New objects are answered for by whoever creates them. -/
lemma Shared.create (h : Shared n used lost) (k : Nat) : Shared (n + k) (used ++ List.range' n k) lost := by
  have more : List.range (n + k) = List.range n ++ List.range' n k := by
    have split := List.range'_append_1 (s := 0) (m := n) (n := k)
    rw [Nat.zero_add] at split
    rw [List.range_eq_range', List.range_eq_range', split]
  unfold Shared
  rw [more, List.append_assoc]
  refine (List.perm_append_comm.append_left used).trans ?_
  rw [← List.append_assoc]
  exact List.Perm.append_right _ h

lemma Shared.drop (h : Shared n (used ++ moved) lost) : Shared n used (lost ++ moved) := by
  unfold Shared at h ⊢
  rw [List.append_assoc] at h
  exact (List.perm_append_comm.append_left used).trans h

/-- **Every object is answered for once exactly when none is lost.** -/
theorem Shared.once_iff (h : Shared n used lost) : (∀ m, m < n → used.count m = 1) ↔ lost = [] := by
  have total : ∀ m, used.count m + lost.count m = if m < n then 1 else 0 := by
    intro m
    rw [← List.count_append, h.count_eq, List.nodup_range.count]
    simp only [List.mem_range]
  constructor
  · intro once
    rw [List.eq_nil_iff_forall_not_mem]
    intro m member
    have inside : m < n := List.mem_range.mp (h.subset (List.mem_append_right used member))
    have counted := total m
    rw [once m inside, if_pos inside] at counted
    exact absurd (List.count_pos_iff.mpr member) (by omega)
  · rintro rfl m inside
    have counted := total m
    rw [if_pos inside, List.count_nil] at counted
    exact counted

end Hex.Theory.Ownership
