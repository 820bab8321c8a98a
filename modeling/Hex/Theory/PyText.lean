/-
# Theory.PyText — texts as a Python script reads them

The few functions on `str` that the analysis scripts take their input files
apart with, on the texts of `CText`: `strip`, `split` without an argument, and
`int`. A byte that is no ASCII code is part of a letter here; the blanks are the
ASCII ones.
-/
import Hex.Theory.CText

namespace Hex.Theory.PyText

open CText

/-- `str.isspace`, for an ASCII code. -/
def isBlank (c : Char) : Bool := isSpace c || (28 ≤ c.toNat && c.toNat ≤ 31)

def strip (t : Text) : Text := (t.dropWhile isBlank).rdropWhile isBlank

/-- `re.sub(r"[ \t]+", " ", t)`; `blank` says that the text follows a blank. -/
def squeeze (blank : Bool) : Text → Text
  | [] => []
  | c :: t =>
    if c = ' ' ∨ c = '\t' then if blank then squeeze true t else ' ' :: squeeze true t
    else c :: squeeze false t

/-- `t.split()`. -/
def words (t : Text) : List Text := (t.splitOnP isBlank).filter (· ≠ [])

/-- `int(t)` of a numeral without blanks and underscores, or `none` for a
`ValueError`. -/
def intOf (t : Text) : Option Int :=
  let (sign, digits) := readSign t
  if digits ≠ [] ∧ digits.all Char.isDigit then some (sign * digitsValue digits) else none

/-- A text neither starts nor ends with a blank. -/
def Trimmed (t : Text) : Prop :=
  (∀ c ∈ t.head?, isBlank c = false) ∧ ∀ c ∈ t.getLast?, isBlank c = false

/-- **`strip` takes off the blanks around a text, and no more.** -/
theorem strip_append {a t b : Text} (before : ∀ c ∈ a, isBlank c = true) (trimmed : Trimmed t)
    (behind : ∀ c ∈ b, isBlank c = true) (some : t ≠ []) : strip (a ++ t ++ b) = t := by
  have start : (a ++ t ++ b).dropWhile isBlank = t ++ b := by
    rw [List.append_assoc, List.dropWhile_append_of_pos before]
    obtain ⟨c, rest, rfl⟩ := List.exists_cons_of_ne_nil some
    simp [trimmed.1 c rfl]
  have stop : b.reverse.dropWhile isBlank = [] :=
    List.dropWhile_eq_nil_iff.mpr fun c member => behind c (List.mem_reverse.mp member)
  rw [strip, start, List.rdropWhile, List.reverse_append,
    List.dropWhile_append_of_pos fun c member => behind c (List.mem_reverse.mp member),
    ← List.rdropWhile, List.rdropWhile_eq_self_iff]
  intro _
  simp [trimmed.2 _ (List.getLast_mem_getLast? some)]

lemma words_eq_tokens {t : Text} (spaces : ∀ c ∈ t, isBlank c = true → c = ' ') : words t = tokens ' ' t := by
  have same : t.splitOnP isBlank = t.splitOn ' ' := by
    induction t with
    | nil => rfl
    | cons c t ih =>
      have here : isBlank c = (c == ' ') := by
        rw [Bool.eq_iff_iff, beq_iff_eq]
        exact ⟨spaces c (by simp), fun space => space ▸ by decide⟩
      rw [List.splitOnP_cons_eq_if_modifyHead, List.splitOn_cons_eq_if_modifyHead, here,
        ih fun d member => spaces d (by simp [member])]
  rw [words, tokens, same]

/-! ## What occurs in a text -/

/-- Dropping elements at the front keeps what starts with another one. -/
lemma infix_dropWhile {α : Type*} {f : α → Bool} {p : List α} (head : ∀ c ∈ p.head?, f c = false) (some : p ≠ [])
    {t : List α} (found : p <:+: t) : p <:+: t.dropWhile f := by
  induction t with
  | nil => exact found
  | cons c t ih =>
    cases drop : f c with
    | false => simpa [drop] using found
    | true =>
      rw [List.dropWhile_cons_of_pos drop]
      rcases List.infix_cons_iff.mp found with start | later
      · obtain ⟨d, rest, rfl⟩ := List.exists_cons_of_ne_nil some
        obtain ⟨rfl, _⟩ := List.cons_prefix_cons.mp start
        cases drop.symm.trans (head d rfl)
      · exact ih later

lemma infix_strip {p t : Text} (trimmed : Trimmed p) (some : p ≠ []) (found : p <:+: t) : p <:+: strip t := by
  have start := infix_dropWhile trimmed.1 some found
  rw [strip, List.rdropWhile, ← List.reverse_infix, List.reverse_reverse]
  refine infix_dropWhile ?_ (List.reverse_ne_nil_iff.mpr some) (List.reverse_infix.mpr start)
  rw [List.head?_reverse]
  exact trimmed.2

/-- The part of a text behind a given start is squeezed on its own. -/
lemma squeeze_append (blank : Bool) (a t : Text) :
    ∃ behind, squeeze blank (a ++ t) = squeeze blank a ++ squeeze behind t := by
  induction a generalizing blank with
  | nil => exact ⟨blank, rfl⟩
  | cons c a ih =>
    rw [List.cons_append, squeeze, squeeze]
    split_ifs
    · exact ih true
    · obtain ⟨behind, eq⟩ := ih true
      exact ⟨behind, by rw [eq, List.cons_append]⟩
    · obtain ⟨behind, eq⟩ := ih false
      exact ⟨behind, by rw [eq, List.cons_append]⟩

lemma infix_squeeze {p t : Text} (head : ∀ c ∈ p.head?, isBlank c = false) (kept : squeeze false p = p)
    (found : p <:+: t) : p <:+: squeeze false t := by
  obtain ⟨a, b, rfl⟩ := found
  rw [List.append_assoc]
  obtain ⟨behind, eq⟩ := squeeze_append false a (p ++ b)
  obtain ⟨later, rest⟩ := squeeze_append behind p b
  have here : squeeze behind p = p := by
    cases p with
    | nil => rfl
    | cons c p =>
      have solid : ¬ (c = ' ' ∨ c = '\t') := by
        rintro (rfl | rfl) <;> exact absurd (head _ rfl) (by decide)
      rw [squeeze, if_neg solid] at kept ⊢
      exact kept
  rw [eq, rest, here]
  exact ⟨squeeze false a, squeeze later b, List.append_assoc _ _ _⟩

/-! ## Numerals -/

lemma intOf_decimal (n : Nat) : intOf (decimal n) = some (n : Int) := by
  have digits : ∀ c ∈ decimal n, c.isDigit = true := fun c => isDigit_of_mem_decimal
  simp only [intOf, readSign_digits digits, ne_eq, decimal_ne_nil, not_false_eq_true, true_and,
    List.all_eq_true.mpr digits, if_true, digitsValue_decimal, one_mul]

end Hex.Theory.PyText
