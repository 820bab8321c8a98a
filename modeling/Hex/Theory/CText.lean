/-
# Theory.CText — texts as C reads them

A text is a list of bytes, each written as the character with its code. These are
the functions of the C library that the server takes its input files apart with:

* `readLines n` is the loop `while (fgets(line, n + 1, file))`: it cuts a file at
  its newlines and, in a line that is too long for the buffer, every `n` bytes;
  `readLines_eq_lines` says that it cuts the lines of the file one by one;
* `strtok` and `tokens`: a delimiter never starts a token, and several in a row
  count as one;
* `strtol`, with the sign it accepts, the position it stops at and the clamp of a
  number that does not fit a `long`; `strtol_decimal` says that it reads back
  what `%d` prints.
-/
import Mathlib.Algebra.Order.BigOperators.Group.List
import Mathlib.Data.Bool.AllAny
import Mathlib.Data.List.DropRight
import Mathlib.Data.List.Forall2
import Mathlib.Data.Nat.Digits.Lemmas

namespace Hex.Theory.CText

abbrev Text := List Char

variable {n : Nat} {t line word : Text} {c d : Char}

/-- `isspace` in the C locale: the blank, and the codes from the tab to the
carriage return. -/
def isSpace (c : Char) : Bool := c.toNat == 32 || (9 ≤ c.toNat && c.toNat ≤ 13)

def newline : Char := '\n'

/-- The part of a buffer that a string function sees. -/
def cString (t : Text) : Text := t.takeWhile (· ≠ Char.ofNat 0)

/-- `strcasecmp(a, b) == 0` in the C locale. -/
def sameIgnoringCase (a b : Text) : Bool := a.map Char.toLower == b.map Char.toLower

lemma sameIgnoringCase_refl (a : Text) : sameIgnoringCase a a = true := by
  simp [sameIgnoringCase]

/-! ## Lines -/

/-- Put a byte in front of the first line. -/
def consHead (c : Char) : List Text → List Text
  | [] => [[c]]
  | line :: rest => (c :: line) :: rest

def lines : Text → List Text
  | [] => []
  | c :: t => if c = newline then [c] :: lines t else consHead c (lines t)

/-- What `fgets` returns call by call, with a buffer for `n` bytes of which `room`
are left. -/
def readLines (n : Nat) : Nat → Text → List Text
  | _, [] => []
  | room, c :: t =>
    if c = newline ∨ room ≤ 1 then [c] :: readLines n n t
    else consHead c (readLines n (room - 1) t)

lemma readLines_eq_nil {room : Nat} : readLines n room t = [] ↔ t = [] := by
  cases t with
  | nil => simp [readLines]
  | cons c t =>
    by_cases end_ : c = newline ∨ room ≤ 1
    · simp [readLines, end_]
    · cases rest : readLines n (room - 1) t <;> simp [readLines, end_, rest, consHead]

lemma consHead_append {a b : List Text} (some : a ≠ []) : consHead c (a ++ b) = consHead c a ++ b := by
  cases a with
  | nil => exact absurd rfl some
  | cons line rest => rfl

lemma ne_nil_of_mem_lines (member : line ∈ lines t) : line ≠ [] := by
  induction t generalizing line with
  | nil => simp [lines] at member
  | cons c t ih =>
    by_cases end_ : c = newline
    · simp only [lines, end_, if_true, List.mem_cons] at member
      obtain rfl | later := member
      · exact List.cons_ne_nil _ _
      · exact ih later
    · cases rest : lines t with
      | nil => simp_all [lines, consHead]
      | cons first others =>
        simp only [lines, end_, if_false, rest, consHead, List.mem_cons] at member
        obtain rfl | later := member
        · exact List.cons_ne_nil _ _
        · exact ih (by simp [rest, later])

/-- The first line is cut with the room that is left, the others with a full buffer. -/
lemma readLines_cut (n : Nat) (t : Text) : ∀ room : Nat, readLines n room t = match lines t with
    | [] => []
    | line :: rest => readLines n room line ++ rest.flatMap (readLines n n) := by
  induction t with
  | nil => intro room; rfl
  | cons c t ih =>
    intro room
    by_cases full : c = newline ∨ room ≤ 1
    · have whole := ih n
      by_cases end_ : c = newline
      · cases rest : lines t <;> simp_all [readLines, lines]
      · cases rest : lines t <;> simp_all [readLines, lines, consHead]
    · have less := ih (room - 1)
      cases rest : lines t with
      | nil => simp_all [readLines, lines, consHead]
      | cons line others =>
        have filled : readLines n (room - 1) line ≠ [] := by
          rw [Ne, readLines_eq_nil]
          exact ne_nil_of_mem_lines (t := t) (by simp [rest])
        rw [rest] at less
        simp only [not_or] at full
        have cut : lines (c :: t) = (c :: line) :: others := by
          simp [lines, full.1, rest, consHead]
        rw [cut]
        simp only [readLines, full, or_self, if_false, less]
        exact consHead_append filled

/-- **The loop over `fgets` cuts the lines of a file one by one.** -/
theorem readLines_eq_lines (n : Nat) (t : Text) : readLines n n t = (lines t).flatMap (readLines n n) := by
  rw [readLines_cut n t n]
  cases lines t with
  | nil => rfl
  | cons line rest => simp

lemma readLines_short (n : Nat) (rest : Text) (plain : newline ∉ line) :
    ∀ {room : Nat}, line.length < room → readLines n room (line ++ newline :: rest) =
      (line ++ [newline]) :: readLines n n rest := by
  induction line with
  | nil => intro room _; simp [readLines]
  | cons c line ih =>
    intro room fits
    simp only [List.mem_cons, not_or] at plain
    have more : ¬ (c = newline ∨ room ≤ 1) := by
      simp only [List.length_cons] at fits
      exact fun h => h.elim (fun e => plain.1 e.symm) (by omega)
    have shorter : line.length < room - 1 := by simp only [List.length_cons] at fits; omega
    simp only [List.cons_append, readLines, more, if_false, ih plain.2 shorter, consHead]

lemma readLines_long (n : Nat) (rest : Text) (plain : newline ∉ line) :
    ∀ {room : Nat}, 0 < room → room ≤ line.length → readLines n room (line ++ rest) =
      line.take room :: readLines n n (line.drop room ++ rest) := by
  induction line with
  | nil => intro room some few; exact absurd few (by simpa using some.ne')
  | cons c line ih =>
    intro room some few
    simp only [List.mem_cons, not_or] at plain
    obtain ⟨room, rfl⟩ : ∃ k, room = k + 1 := ⟨room - 1, by omega⟩
    cases room with
    | zero => simp [readLines]
    | succ room =>
      have more : ¬ (c = newline ∨ room + 1 + 1 ≤ 1) := by
        rintro (same | none)
        · exact plain.1 same.symm
        · omega
      simp only [List.length_cons, Nat.add_le_add_iff_right] at few
      simp only [List.cons_append, readLines, more, if_false, Nat.add_sub_cancel,
        ih plain.2 (Nat.succ_pos room) few, consHead, List.take_succ_cons, List.drop_succ_cons]

lemma flatten_readLines (n : Nat) (t : Text) : ∀ room : Nat, (readLines n room t).flatten = t := by
  induction t with
  | nil => intro room; rfl
  | cons c t ih =>
    intro room
    by_cases end_ : c = newline ∨ room ≤ 1
    · simp [readLines, end_, ih]
    · have later := ih (room - 1)
      simp only [readLines, end_, if_false]
      cases rest : readLines n (room - 1) t <;> simp_all [consHead]

lemma mem_of_mem_readLines {room : Nat} {piece : Text}
    (member : piece ∈ readLines n room t) (inside : c ∈ piece) : c ∈ t := by
  rw [← flatten_readLines n t room]
  exact List.mem_flatten.mpr ⟨piece, member, inside⟩

lemma lines_line (rest : Text) (plain : newline ∉ line) :
    lines (line ++ newline :: rest) = (line ++ [newline]) :: lines rest := by
  induction line with
  | nil => simp [lines]
  | cons c line ih =>
    simp only [List.mem_cons, not_or] at plain
    simp only [List.cons_append, lines, Ne.symm plain.1, if_false, ih plain.2, consHead]

/-- A file written line by line. -/
def fileOf (ls : List Text) : Text := ls.flatMap (· ++ [newline])

lemma lines_fileOf {ls : List Text} (plain : ∀ line ∈ ls, newline ∉ line) :
    lines (fileOf ls) = ls.map (· ++ [newline]) := by
  induction ls with
  | nil => rfl
  | cons line ls ih =>
    have first : fileOf (line :: ls) = line ++ newline :: fileOf ls := by simp [fileOf]
    rw [List.forall_mem_cons] at plain
    rw [first, lines_line _ plain.1, ih plain.2, List.map_cons]

lemma readLines_fileOf {ls : List Text} (plain : ∀ line ∈ ls, newline ∉ line)
    (short : ∀ line ∈ ls, line.length < n) : readLines n n (fileOf ls) = ls.map (· ++ [newline]) := by
  induction ls with
  | nil => rfl
  | cons line ls ih =>
    have first : fileOf (line :: ls) = line ++ newline :: fileOf ls := by simp [fileOf]
    rw [List.forall_mem_cons] at plain short
    rw [first, readLines_short n _ plain.1 short.1, ih plain.2 short.2, List.map_cons]

/-! ## Tokens -/

/-- One call of `strtok`: the token, and the text behind its delimiter. -/
def strtok (d : Char) (t : Text) : Option (Text × Text) :=
  match t.dropWhile (· = d) with
  | [] => none
  | c :: s => some (c :: s.takeWhile (· ≠ d), (s.dropWhile (· ≠ d)).tail)

lemma strtok_word (rest : Text) (plain : d ∉ word) (some : word ≠ []) :
    strtok d (word ++ d :: rest) = .some (word, rest) := by
  cases word with
  | nil => exact absurd rfl some
  | cons c word =>
    simp only [List.mem_cons, not_or] at plain
    have inWord : ∀ e ∈ word, decide (e ≠ d) = true := fun e member =>
      decide_eq_true fun same => plain.2 (same ▸ member)
    simp only [strtok, List.cons_append, Ne.symm plain.1, decide_false, Bool.false_eq_true,
      not_false_eq_true, List.dropWhile_cons_of_neg, List.takeWhile_append_of_pos inWord,
      List.dropWhile_append_of_pos inWord]
    simp

lemma strtok_last (plain : d ∉ word) (some : word ≠ []) : strtok d word = .some (word, []) := by
  cases word with
  | nil => exact absurd rfl some
  | cons c word =>
    simp only [List.mem_cons, not_or] at plain
    have inWord : ∀ e ∈ word, decide (e ≠ d) = true := fun e member =>
      decide_eq_true fun same => plain.2 (same ▸ member)
    simp only [strtok, Ne.symm plain.1, decide_false, Bool.false_eq_true, not_false_eq_true,
      List.dropWhile_cons_of_neg, List.takeWhile_eq_self_iff.mpr inWord,
      List.dropWhile_eq_nil_iff.mpr inWord, List.tail_nil]

lemma mem_of_strtok {token rest : Text} (found : strtok d t = some (token, rest)) (inside : c ∈ token) : c ∈ t := by
  apply List.dropWhile_subset (fun x => decide (x = d)) _
  unfold strtok at found
  split at found
  · cases found
  · rename_i e s left
    cases found
    rw [left]
    obtain rfl | later := List.mem_cons.mp inside
    · exact List.mem_cons_self
    · exact List.mem_cons_of_mem e (List.takeWhile_subset _ later)

def tokens (d : Char) (t : Text) : List Text := (t.splitOn d).filter (· ≠ [])

lemma splitOn_eq (d : Char) (t : Text) : t.splitOn d = t.takeWhile (· ≠ d) :: match t.dropWhile (· ≠ d) with
    | [] => []
    | _ :: rest => rest.splitOn d := by
  induction t with
  | nil => rfl
  | cons c t ih =>
    rw [List.splitOn_cons_eq_if_modifyHead]
    by_cases here : c = d
    · simp [here]
    · rw [ih]
      simp [here]

lemma tokens_delimiter (d : Char) (t : Text) : tokens d (d :: t) = tokens d t := by
  simp [tokens, List.splitOn_cons_eq_if_modifyHead]

/-- A word in front of a delimiter, or of nothing, is the first token. -/
lemma tokens_word {rest : Text} (plain : d ∉ word) (some : word ≠ []) (ends : rest = [] ∨ rest.head? = .some d) :
    tokens d (word ++ rest) = word :: tokens d rest := by
  have inWord : ∀ c ∈ word, decide (c ≠ d) = true := fun c member =>
    decide_eq_true fun same => plain (same ▸ member)
  obtain rfl | starts := ends
  · rw [tokens, splitOn_eq, List.append_nil, List.takeWhile_eq_self_iff.mpr inWord,
      List.dropWhile_eq_nil_iff.mpr inWord]
    simp [tokens, some]
  · obtain ⟨rest, rfl⟩ : ∃ r, rest = d :: r := by
      cases rest with
      | nil => cases starts
      | cons c r => exact ⟨r, by simp_all⟩
    rw [tokens, splitOn_eq, List.takeWhile_append_of_pos inWord,
      List.dropWhile_append_of_pos inWord, tokens_delimiter]
    simp [tokens, some]

lemma tokens_words {words : List Text} (plain : ∀ w ∈ words, w ≠ [] ∧ d ∉ w) :
    tokens d (words.flatMap (d :: ·)) = words := by
  induction words with
  | nil => rfl
  | cons word words ih =>
    obtain ⟨some, inWord⟩ := plain word (by simp)
    have ends : words.flatMap (d :: ·) = [] ∨ (words.flatMap (d :: ·)).head? = .some d := by
      cases words <;> simp
    rw [List.flatMap_cons, List.cons_append, tokens_delimiter, tokens_word inWord some ends,
      ih fun w member => plain w (by simp [member])]

lemma mem_of_mem_splitOn {part : Text} (member : part ∈ t.splitOn d) (inside : c ∈ part) : c ∈ t ∧ c ≠ d := by
  induction t generalizing part with
  | nil => simp_all
  | cons e t ih =>
    rw [List.splitOn_cons_eq_if_modifyHead] at member
    split_ifs at member with same
    · obtain rfl | later := List.mem_cons.mp member
      · cases inside
      · exact ⟨List.mem_cons_of_mem e (ih later inside).1, (ih later inside).2⟩
    · cases parts : t.splitOn d with
      | nil => exact absurd parts (List.splitOn_ne_nil d t)
      | cons first others =>
        rw [parts, List.modifyHead_cons, List.mem_cons] at member
        obtain rfl | later := member
        · obtain rfl | here := List.mem_cons.mp inside
          · exact ⟨List.mem_cons_self, by simpa using same⟩
          · have inFirst := ih (by simp [parts]) here
            exact ⟨List.mem_cons_of_mem e inFirst.1, inFirst.2⟩
        · have inLater := ih (by simp [parts, later]) inside
          exact ⟨List.mem_cons_of_mem e inLater.1, inLater.2⟩

lemma mem_of_mem_tokens {token : Text} (member : token ∈ tokens d t) (inside : c ∈ token) : c ∈ t ∧ c ≠ d :=
  mem_of_mem_splitOn (List.mem_of_mem_filter member) inside

lemma sum_splitOn (d : Char) (t : Text) : ((t.splitOn d).map fun part => part.length + 1).sum = t.length + 1 := by
  induction t with
  | nil => rfl
  | cons c t ih =>
    rw [List.splitOn_cons_eq_if_modifyHead]
    split_ifs with same
    · simp [ih, Nat.add_comm]
    · cases parts : t.splitOn d with
      | nil => exact absurd parts (List.splitOn_ne_nil d t)
      | cons first others =>
        rw [parts] at ih
        simp only [List.modifyHead_cons, List.map_cons, List.sum_cons, List.length_cons] at ih ⊢
        omega

lemma length_splitOn (d : Char) (t : Text) : (t.splitOn d).length = t.count d + 1 := by
  induction t with
  | nil => rfl
  | cons c t ih =>
    rw [List.splitOn_cons_eq_if_modifyHead]
    split_ifs with same
    · rw [List.length_cons, ih, beq_iff_eq.mp same, List.count_cons_self]
    · rw [List.length_modifyHead, ih, List.count_cons_of_ne (by simpa using same)]

/-- The tokens are no longer than the text, with one delimiter for each but one. -/
lemma sum_tokens_le (d : Char) (t : Text) : ((tokens d t).map fun token => token.length + 1).sum ≤ t.length + 1 := by
  rw [← sum_splitOn d t]
  exact (List.filter_sublist.map _).sum_le_sum fun _ _ => Nat.zero_le _

lemma length_tokens_le (d : Char) (t : Text) : (tokens d t).length ≤ t.count d + 1 := by
  rw [← length_splitOn d t]
  exact List.length_filter_le _ _

/-- A text put together from tokens by the delimiter is cut into them again. -/
lemma tokens_intercalate {parts : List Text} (plain : ∀ t ∈ parts, d ∉ t)
    (some : parts ≠ []) : tokens d ([d].intercalate parts) = parts.filter (· ≠ []) := by
  rw [tokens, List.splitOn_intercalate d plain some]

/-- A character of joined fields is the separator or stands in one of them. -/
lemma mem_intercalate {fields : List Text} (member : c ∈ [d].intercalate fields) :
    c = d ∨ ∃ field ∈ fields, c ∈ field := by
  induction fields with
  | nil => simp [List.intercalate] at member
  | cons field fields ih =>
    cases fields with
    | nil => exact .inr ⟨field, by simp, by simpa using member⟩
    | cons next fields =>
      rw [List.intercalate_cons_cons, List.mem_append, List.mem_append] at member
      obtain (here | separator) | later := member
      · exact .inr ⟨field, by simp, here⟩
      · exact .inl (by simpa using separator)
      · obtain separator | ⟨other, inside, there⟩ := ih later
        · exact .inl separator
        · exact .inr ⟨other, by simp [inside], there⟩

lemma intercalate_append (d : Char) (parts : List Text) (last s : Text) :
    [d].intercalate (parts ++ [last]) ++ s = [d].intercalate (parts ++ [last ++ s]) := by
  induction parts with
  | nil => simp
  | cons part parts ih =>
    cases parts with
    | nil => simp [List.intercalate_cons_cons]
    | cons next parts =>
      simp only [List.cons_append, List.intercalate_cons_cons, List.append_assoc] at ih ⊢
      rw [ih]

/-! ## Literals -/

/-- A text as a number, to tell literals apart quickly. -/
def textCode (t : Text) : Nat := t.foldl (fun n c => 128 * n + c.toNat) 0

section Literals

variable {names : List String} {spelled : List Text}
  (same : List.Forall₂ (fun name text => name = String.ofList text) names spelled)
include same

lemma eq_map_of_spelled : names = spelled.map String.ofList := by
  rw [← List.forall₂_eq_eq_eq]
  exact List.forall₂_map_right_iff.mpr same

lemma nodup_of_spelled (distinct : (spelled.map textCode).Nodup) : names.Nodup := by
  rw [eq_map_of_spelled same]
  exact (distinct.of_map _).map fun a b same => by simpa using congrArg String.toList same

end Literals

/-! ## Blanks -/

def trimStart (t : Text) : Text := t.dropWhile isSpace

/-- Cut trailing blanks off, as `while (end > token && isspace(*end))` does it: the
first byte always stays. -/
def trimEnd : Text → Text
  | [] => []
  | c :: t => c :: t.rdropWhile isSpace

lemma trimStart_eq_self (plain : ∀ c ∈ t, isSpace c = false) : trimStart t = t := by
  cases t with
  | nil => rfl
  | cons c t => simp [trimStart, plain c (by simp)]

lemma rdropWhile_plain (plain : ∀ c ∈ t, isSpace c = false) : t.rdropWhile isSpace = t := by
  rw [List.rdropWhile_eq_self_iff]
  intro some
  simp [plain _ (List.getLast_mem some)]

lemma trimEnd_eq_self (plain : ∀ c ∈ t, isSpace c = false) : trimEnd t = t := by
  cases t with
  | nil => rfl
  | cons c t => rw [trimEnd, rdropWhile_plain fun d member => plain d (by simp [member])]

lemma trimEnd_newline (plain : ∀ c ∈ t, isSpace c = false) (some : t ≠ []) : trimEnd (t ++ [newline]) = t := by
  cases t with
  | nil => exact absurd rfl some
  | cons c t =>
    have blank : isSpace newline = true := by decide
    rw [List.cons_append, trimEnd, List.rdropWhile_concat_pos _ _ _ blank,
      rdropWhile_plain fun d member => plain d (by simp [member])]

/-! ## Numbers -/

/-- `%d` of a number that is not negative. -/
def decimal (n : Nat) : Text := Nat.toDigits 10 n

def digitsValue (t : Text) : Nat := Nat.ofDigitChars 10 t 0

/-- The nearest value of a 64-bit `long`. -/
def clampLong (z : Int) : Int := max (-2 ^ 63) (min (2 ^ 63 - 1) z)

def readSign : Text → Int × Text
  | '-' :: t => (-1, t)
  | '+' :: t => (1, t)
  | t => (1, t)

/-- `strtol(t, &endptr, 10)`: the value, and what `endptr` points to. Without a
digit nothing is consumed. -/
def strtol (t : Text) : Int × Text :=
  let (sign, s) := readSign (trimStart t)
  let digits := s.takeWhile Char.isDigit
  if digits = [] then (0, t)
  else (clampLong (sign * digitsValue digits), s.dropWhile Char.isDigit)

/-- The conversion of a `long` to an `int`. -/
def toInt (z : Int) : Int := z.bmod (2 ^ 32)

lemma isDigit_of_mem_decimal (member : c ∈ decimal n) : c.isDigit = true :=
  Nat.isDigit_of_mem_toDigits (by decide) (by decide) member

lemma decimal_ne_nil (n : Nat) : decimal n ≠ [] := Nat.toDigits_ne_nil

lemma digitsValue_decimal (n : Nat) : digitsValue (decimal n) = n :=
  Nat.ofDigitChars_toDigits (by decide) (by decide)

lemma isDigit_iff : c.isDigit = true ↔ 48 ≤ c.toNat ∧ c.toNat ≤ 57 := by
  simp [Char.isDigit, UInt32.le_iff_toNat_le]

lemma isSpace_of_isDigit (digit : c.isDigit = true) : isSpace c = false := by
  rw [isDigit_iff] at digit
  simp only [isSpace, Bool.or_eq_false_iff, beq_eq_false_iff_ne, Bool.and_eq_false_iff,
    decide_eq_false_iff_not]
  omega

lemma isSpace_of_mem_decimal (member : c ∈ decimal n) : isSpace c = false :=
  isSpace_of_isDigit (isDigit_of_mem_decimal member)

lemma readSign_digits (digits : ∀ c ∈ t, c.isDigit = true) : readSign t = (1, t) := by
  cases t with
  | nil => rfl
  | cons c t =>
    have digit := isDigit_iff.mp (digits c (by simp))
    have plus : c ≠ '+' := by rintro rfl; exact absurd digit (by decide)
    have minus : c ≠ '-' := by rintro rfl; exact absurd digit (by decide)
    unfold readSign
    split
    · simp_all
    · simp_all
    · rfl

/-- **`strtol` reads back what `%d` prints.** -/
theorem strtol_decimal (small : n < 2 ^ 63) : strtol (decimal n) = ((n : Int), []) := by
  have digits : ∀ c ∈ decimal n, c.isDigit = true := fun c => isDigit_of_mem_decimal
  have start : trimStart (decimal n) = decimal n :=
    trimStart_eq_self fun c => isSpace_of_mem_decimal
  have taken : (decimal n).takeWhile Char.isDigit = decimal n := List.takeWhile_eq_self_iff.mpr digits
  have left : (decimal n).dropWhile Char.isDigit = [] := List.dropWhile_eq_nil_iff.mpr digits
  have fits : clampLong (1 * (n : Int)) = n := by simp only [clampLong]; omega
  simp only [strtol, start, readSign_digits digits, taken, decimal_ne_nil, if_false, left,
    digitsValue_decimal, fits]

lemma toInt_of_lt (small : n < 2 ^ 31) : toInt (n : Int) = n := by
  simp only [toInt, Int.bmod]
  split <;> omega

lemma newline_not_mem_decimal (n : Nat) : newline ∉ decimal n := by
  intro member
  exact absurd (isDigit_of_mem_decimal member) (by decide)

end Hex.Theory.CText
