/-
# Theory.SharedFile — a file that several writers append to

Writers append to one file, one after the other. A character is signed here with the
number of its writer, so that a part of the file can be said to belong to one of
them. `OneEach` says that the file consists of records, one for each of a list of
owners, in their order and each written by its owner alone. `oneEach_iff` says that
this is a matter of what each writer appends: a record when it is an owner, and
nothing otherwise.
-/
import Mathlib.Data.List.Forall2

namespace Hex.Theory.SharedFile

variable {C : Type}

def signed (writer : Nat) (part : List C) : List (Nat × C) := part.map fun c => (writer, c)

/-- The file of the writers from `n` on. -/
def fileFrom (n : Nat) : List (List C) → List (Nat × C)
  | [] => []
  | part :: parts => signed n part ++ fileFrom (n + 1) parts

/-- The writers from `n` on that are to have a record. -/
def ownersFrom (n : Nat) : List Bool → List Nat
  | [] => []
  | true :: rest => n :: ownersFrom (n + 1) rest
  | false :: rest => ownersFrom (n + 1) rest

def OneEach (Record : List C → Prop) (file : List (Nat × C)) (owners : List Nat) : Prop :=
  ∃ records : List (List (Nat × C)), records.flatten = file ∧
    List.Forall₂ (fun record owner => Record (record.map Prod.snd) ∧ ∀ c ∈ record, c.1 = owner) records owners

lemma unsigned (writer : Nat) (part : List C) : (signed writer part).map Prod.snd = part := by
  simp [signed, Function.comp_def]

lemma le_of_mem_fileFrom {n : Nat} {parts : List (List C)} {c : Nat × C}
    (member : c ∈ fileFrom n parts) : n ≤ c.1 := by
  induction parts generalizing n with
  | nil => cases member
  | cons part parts ih =>
    obtain here | later := List.mem_append.mp member
    · obtain ⟨_, _, rfl⟩ := List.mem_map.mp here
      exact Nat.le_refl _
    · exact Nat.le_of_succ_le (ih later)

lemma le_of_mem_ownersFrom {n : Nat} {flags : List Bool} {owner : Nat}
    (member : owner ∈ ownersFrom n flags) : n ≤ owner := by
  induction flags generalizing n with
  | nil => cases member
  | cons flag flags ih =>
    cases flag with
    | false => exact Nat.le_of_succ_le (ih member)
    | true =>
      obtain rfl | later := List.mem_cons.mp member
      · exact Nat.le_refl _
      · exact Nat.le_of_succ_le (ih later)

/-- The part of a writer is what carries its number. -/
lemma filter_own {n : Nat} {own rest : List (Nat × C)} (mine : ∀ c ∈ own, c.1 = n)
    (others : ∀ c ∈ rest, n < c.1) : (own ++ rest).filter (fun c => c.1 = n) = own := by
  rw [List.filter_append, List.filter_eq_self.mpr, List.filter_eq_nil_iff.mpr, List.append_nil]
  · intro c member
    simpa using Nat.ne_of_gt (others c member)
  · intro c member
    simpa using mine c member

lemma mem_signed {n : Nat} {part : List C} {c : Nat × C} (member : c ∈ signed n part) : c.1 = n := by
  obtain ⟨_, _, rfl⟩ := List.mem_map.mp member
  rfl

lemma lt_of_mem_records {Record : List C → Prop} {n : Nat} {owners : List Nat} {records : List (List (Nat × C))}
    (owned : List.Forall₂ (fun record owner => Record (record.map Prod.snd) ∧ ∀ c ∈ record, c.1 = owner) records owners)
    (later : ∀ owner ∈ owners, n < owner) : ∀ c ∈ records.flatten, n < c.1 := by
  induction owned with
  | nil => simp
  | cons here _ ih =>
    intro c member
    obtain inside | behind := List.mem_append.mp member
    · rw [here.2 c inside]
      exact later _ List.mem_cons_self
    · exact ih (fun owner member => later owner (List.mem_cons_of_mem _ member)) c behind

/-- **Each owner has its record just when every owner appends a record and the
others nothing.** -/
theorem oneEach_iff (Record : List C → Prop) (n : Nat) (entries : List (Bool × List C)) :
    OneEach Record (fileFrom n (entries.map Prod.snd)) (ownersFrom n (entries.map Prod.fst)) ↔
      ∀ entry ∈ entries, if entry.1 = true then Record entry.2 else entry.2 = [] := by
  induction entries generalizing n with
  | nil => simp [OneEach, fileFrom, ownersFrom]
  | cons entry entries ih =>
    obtain ⟨flag, part⟩ := entry
    rw [List.forall_mem_cons, ← ih (n + 1)]
    have behind : ∀ c ∈ fileFrom (n + 1) (entries.map Prod.snd), n < c.1 := fun c =>
      le_of_mem_fileFrom
    have later : ∀ owner ∈ ownersFrom (n + 1) (entries.map Prod.fst), n < owner := fun owner =>
      le_of_mem_ownersFrom
    have mine := filter_own (fun c (member : c ∈ signed n part) => mem_signed member) behind
    cases flag with
    | true =>
      constructor
      · rintro ⟨records, whole, owned⟩
        obtain ⟨record, rest, ⟨isRecord, own⟩, others, rfl⟩ :=
          List.forall₂_cons_right_iff.mp owned
        have first : record = signed n part := by
          rw [← filter_own own (lt_of_mem_records others later), ← mine]
          exact congrArg _ whole
        rw [List.flatten_cons, first] at whole
        refine ⟨?_, rest, List.append_cancel_left whole, others⟩
        rw [first, unsigned] at isRecord
        exact isRecord
      · rintro ⟨isRecord, rest, whole, owned⟩
        refine ⟨signed n part :: rest, ?_, .cons ⟨?_, fun c => mem_signed⟩ owned⟩
        · rw [List.flatten_cons, whole]
          rfl
        · rw [unsigned]
          exact isRecord
    | false =>
      constructor
      · rintro ⟨records, whole, owned⟩
        -- no record is by this writer, so that it has written nothing
        have none : signed n part = [] := by
          rw [← mine, List.filter_eq_nil_iff]
          intro c member
          have above := lt_of_mem_records owned later c (by rw [whole]; exact member)
          simpa using Nat.ne_of_gt above
        have empty : part = [] := List.map_eq_nil_iff.mp none
        subst empty
        exact ⟨rfl, records, whole, owned⟩
      · rintro ⟨empty, records, whole, owned⟩
        obtain rfl : part = [] := empty
        exact ⟨records, whole, owned⟩

end Hex.Theory.SharedFile
