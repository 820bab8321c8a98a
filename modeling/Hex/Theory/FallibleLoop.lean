/-
# Theory.FallibleLoop — loops whose body may fail

A loop that reads every element of a list and stops at the first it cannot read is
`mapM` with values in `Option`. It succeeds when every element can be read
(`mapM_eq_some_iff`), fails when one cannot (`mapM_eq_none_iff`), and does so in any
order (`mapM_perm`). A loop that also uses what it reads is no different from one
that reads everything first (`foldlM_map`), and keeps what its steps keep
(`foldlM_invariant`).
-/
import Mathlib.Data.List.Forall2
import Mathlib.Data.List.Perm.Basic

namespace Hex.Theory.FallibleLoop

variable {A B C S : Type}

lemma mapM_eq_some_iff (f : A → Option B) (l : List A) (ys : List B) :
    l.mapM f = some ys ↔ List.Forall₂ (fun x y => f x = some y) l ys := by
  induction l generalizing ys with
  | nil => cases ys <;> simp
  | cons x l ih =>
    rw [List.mapM_cons]
    cases here : f x with
    | none => cases ys <;> simp [here]
    | some y =>
      cases ys with
      | nil => cases rest : l.mapM f <;> simp
      | cons z ys =>
        rw [List.forall₂_cons, ← ih]
        cases rest : l.mapM f <;> simp [here]

lemma mapM_eq_none_iff (f : A → Option B) (l : List A) : l.mapM f = none ↔ ∃ x ∈ l, f x = none := by
  induction l with
  | nil => simp
  | cons x l ih =>
    rw [List.mapM_cons]
    cases here : f x with
    | none => simp [here]
    | some y => cases rest : l.mapM f <;> simp_all

lemma exists_mapM {f : A → Option B} {l : List A}
    (defined : ∀ x ∈ l, ∃ y, f x = some y) : ∃ ys, l.mapM f = some ys := by
  rw [← Option.ne_none_iff_exists', ne_eq, mapM_eq_none_iff]
  rintro ⟨x, member, failed⟩
  obtain ⟨y, here⟩ := defined x member
  rw [here] at failed
  cases failed

lemma mem_of_mapM {f : A → Option B} {l : List A} {ys : List B}
    (all : l.mapM f = some ys) (y : B) : y ∈ ys ↔ ∃ x ∈ l, f x = some y := by
  rw [mapM_eq_some_iff] at all
  induction all with
  | nil => simp
  | cons here _ ih => simp [ih, here, eq_comm]

lemma mapM_perm {f : A → Option B} {l l' : List A} (perm : l.Perm l') : (l.mapM f = none ∧ l'.mapM f = none) ∨
      ∃ ys ys', l.mapM f = some ys ∧ l'.mapM f = some ys' ∧ ys.Perm ys' := by
  cases read : l.mapM f with
  | none =>
    obtain ⟨x, member, failed⟩ := (mapM_eq_none_iff f l).mp read
    exact .inl ⟨rfl, (mapM_eq_none_iff f l').mpr ⟨x, perm.mem_iff.mp member, failed⟩⟩
  | some ys =>
    obtain ⟨ys', read', permuted⟩ :=
      List.perm_comp_forall₂ perm.symm ((mapM_eq_some_iff f l ys).mp read)
    exact .inr ⟨ys, ys', rfl, (mapM_eq_some_iff f l' ys').mpr read', permuted.symm⟩

/-- A loop that reads each element before it uses it reads them all. -/
lemma foldlM_map (f : A → Option B) (g : S → B → S) (l : List A) (s : S) :
    l.foldlM (fun s a => (f a).map (g s)) s = (l.mapM f).map fun bs => bs.foldl g s := by
  induction l generalizing s with
  | nil => rfl
  | cons a l ih =>
    rw [List.foldlM_cons, List.mapM_cons]
    cases f a with
    | none => rfl
    | some b =>
      show l.foldlM (fun s a => (f a).map (g s)) (g s b) = _
      rw [ih]
      cases l.mapM f <;> rfl

/-- An invariant of the steps holds where the loop ends. -/
lemma foldlM_invariant {f : S → A → Option S} {P : S → Prop} {l : List A}
    (step : ∀ s a s', a ∈ l → P s → f s a = some s' → P s') : ∀ {s s' : S}, P s → l.foldlM f s = some s' → P s' := by
  induction l with
  | nil =>
    intro s s' holds ran
    cases ran
    exact holds
  | cons a l ih =>
    intro s s' holds ran
    rw [List.foldlM_cons, Option.bind_eq_bind, Option.bind_eq_some_iff] at ran
    obtain ⟨next, first, later⟩ := ran
    exact ih (fun s b s' member => step s b s' (List.mem_cons_of_mem a member))
      (step s a next List.mem_cons_self holds first) later

end Hex.Theory.FallibleLoop
