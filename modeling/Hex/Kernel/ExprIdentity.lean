/-
# Kernel.ExprIdentity — what the expression table guarantees

* `table_sound`: over any calls with positive hashes the table keeps the
  invariant of open addressing, numbers the keys in the order of their first
  insertion, and refuses a new key only when it is full;
* `ids_identify_iff`: a number stands for one step sequence exactly when no home
  index falls in front of the table and no two different sequences share a key
  (and no sequence with hash 0 comes twice). Hash and length do not determine the
  sequence, so that this is a condition on the calls.
-/
import Hex.Kernel.ExprTable

namespace Hex.Kernel.ExprTable

open Theory.ProbeTable

variable {log calls : List (List Int)} {steps : List Int}

/-! ## Sequences that leave a mark

Those with a positive hash are among them. -/

/-- The home of the sequence lies in the table, and its hash is not the mark of an empty
entry. -/
structure Marked (steps : List Int) : Prop where
  inside : 0 ≤ homeIndex (calculateHash steps)
  nonzero : calculateHash steps ≠ 0

lemma marked_of_positive (positive : 0 < calculateHash steps) : Marked steps :=
  ⟨homeIndex_of_nonneg (Int.le_of_lt positive), positive.ne'⟩

/-- What the calls are for: a new key gets the next number while there is room. -/
def register (log : List (List Int)) (steps : List Int) : List (List Int) :=
  if key steps ∈ log.map key ∨ log.length = exprListSize then log else log ++ [steps]

/-- The sequences that were given a number, in the order of the calls. -/
def insertions (calls : List (List Int)) : List (List Int) := calls.foldl register []

lemma register_mem {s : List Int} (h : s ∈ register log steps) :
    s ∈ log ∨ s = steps := by
  unfold register at h
  split_ifs at h
  · exact .inl h
  · simpa using h

lemma Refines.add {t : Table}
    (refines : Refines log t) (marks : ∀ s ∈ log, calculateHash s ≠ 0)
    (marked : Marked steps) (short : steps.length ≤ exprSize) :
    ∃ t' r, addExpression t steps = some (t', r) ∧ Refines (register log steps) t' := by
  have bound := home_lt (key steps)
  have nonzero := marked.nonzero
  rw [addExpression_eq marked.inside refines.unused]
  cases outcome : lookup exprListSize home t.keys (key steps) with
  | hit i =>
    have known := (refines.stored_iff nonzero).mp ⟨i, (lookup_hit_iff refines.reached bound).mp outcome⟩
    refine ⟨t, some i, rfl, ?_⟩
    rwa [register, if_pos (.inl known)]
  | free i =>
    obtain ⟨c, _, place, empty, passed⟩ := lookup_free bound outcome
    have hi : i < exprListSize := by
      rw [place]
      exact after_lt (by decide) c
    have unknown : key steps ∉ log.map key := by
      intro known
      obtain ⟨j, hj, stored⟩ := (refines.stored_iff nonzero).mpr known
      exact refines.reached.absent passed (place ▸ empty) hj stored
    have room := refines.free_length marks hi empty
    refine ⟨_, some i, if_pos short, ?_⟩
    rw [register, if_neg (by rintro (known | full) <;> [exact unknown known; omega])]
    exact refines.store outcome
  | full =>
    have occupied : ∀ i, i < exprListSize → t.keys i ≠ none := by
      intro i hi
      obtain ⟨other, there, _⟩ := lookup_full bound outcome hi
      rw [there]
      exact Option.some_ne_none other
    have most := refines.length_le marks (Finset.range exprListSize) (fun i hi _ => Finset.mem_range.mpr hi)
    rw [Finset.card_range] at most
    refine ⟨_, none, rfl, ?_⟩
    rw [register, if_pos (.inr (Nat.le_antisymm most (refines.full_length occupied)))]
    exact refines.marked true

/-- A run of calls that all leave a mark ends in a table that holds its insertions. -/
lemma addAll_refines {t : Table}
    (refines : Refines log t) (marks : ∀ s ∈ log, calculateHash s ≠ 0)
    (short : ∀ s ∈ calls, s.length ≤ exprSize) (marked : ∀ s ∈ calls, Marked s) :
    ∃ last entries, addAll t calls = some (last, entries) ∧ Refines (calls.foldl register log) last := by
  induction calls generalizing log t with
  | nil => exact ⟨t, [], rfl, refines⟩
  | cons steps rest ih =>
    rw [List.forall_mem_cons] at short marked
    obtain ⟨t', r, eq, next⟩ := refines.add marks marked.1 short.1
    have marks' : ∀ s ∈ register log steps, calculateHash s ≠ 0 := by
      intro s member
      rcases register_mem member with old | rfl
      · exact marks s old
      · exact marked.1.nonzero
    obtain ⟨last, entries, run, final⟩ := ih next marks' short.2 marked.2
    exact ⟨last, _, addAll_cons.mpr ⟨t', r, entries, eq, run, rfl⟩, final⟩

lemma foldl_register (distinct : ((log ++ calls).map key).Nodup)
    (room : (log ++ calls).length ≤ exprListSize) : calls.foldl register log = log ++ calls := by
  induction calls generalizing log with
  | nil => simp
  | cons steps rest ih =>
    have new : ¬ (key steps ∈ log.map key ∨ log.length = exprListSize) := by
      rintro (known | full)
      · rw [List.map_append, List.nodup_append] at distinct
        exact distinct.2.2 _ known (key steps) (by simp) rfl
      · simp only [List.length_append, List.length_cons] at room
        omega
    have step : register log steps = log ++ [steps] := by
      rw [register, if_neg new]
    have split : log ++ steps :: rest = (log ++ [steps]) ++ rest := by simp
    rw [split] at distinct room
    rw [List.foldl_cons, step, ih distinct room, split]

/-- A table that logged as many sequences as it has slots is full. -/
lemma Refines.full {t : Table} (refines : Refines log t)
    (marks : ∀ s ∈ log, calculateHash s ≠ 0) (length : log.length = exprListSize) (i : Nat)
    (hi : i < exprListSize) : (t.exprTypes i).hash ≠ 0 := by
  intro empty
  have := refines.free_length marks hi (keys_eq_none.mpr empty)
  omega

lemma addExpression_kept {t t' : Table}
    {r : Option Nat} (refines : Refines log t) (ran : addExpression t steps = some (t', r)) :
    (∃ log', Refines log' t') ∧ ∀ i, (t.exprTypes i).hash ≠ 0 → t'.exprTypes i = t.exprTypes i := by
  cases (addExpression_returned refines.unused ran).2 with
  | hit => exact ⟨⟨log, refines⟩, fun _ _ => rfl⟩
  | free found _ empty =>
    refine ⟨⟨_, refines.store found⟩, fun j occupied => Function.update_of_ne ?_ _ _⟩
    rintro rfl
    exact occupied (keys_eq_none.mp empty)
  | full => exact ⟨⟨log, refines.marked true⟩, fun _ _ => rfl⟩

lemma addAll_kept {t last : Table}
    {entries : List (Option ExprSteps)} (refines : Refines log t)
    (ran : addAll t calls = some (last, entries)) (i : Nat) (occupied : (t.exprTypes i).hash ≠ 0) :
    last.exprTypes i = t.exprTypes i := by
  induction calls generalizing log t entries with
  | nil =>
    cases ran
    rfl
  | cons steps rest ih =>
    obtain ⟨t', r, entries', first, others, _⟩ := addAll_cons.mp ran
    obtain ⟨⟨log', refines'⟩, kept⟩ := addExpression_kept refines first
    rw [← kept i occupied]
    exact ih refines' others (by rwa [kept i occupied])

/-- The table after `calls`. -/
structure Sound (calls : List (List Int)) (t : Table) : Prop where
  /-- Every entry is reached from its home slot over non-empty entries only. -/
  path : ∀ i, i < exprListSize → (t.exprTypes i).hash ≠ 0 →
    ∃ d, d < exprListSize ∧ i = (((t.exprTypes i).hash % 256).toNat + d) % 256 ∧
      ∀ b, b < d → (t.exprTypes ((((t.exprTypes i).hash % 256).toNat + b) % 256)).hash ≠ 0
  /-- No two entries have the same hash and length. -/
  unique : ∀ i j, i < exprListSize → j < exprListSize → (t.exprTypes i).hash ≠ 0 →
    (t.exprTypes i).hash = (t.exprTypes j).hash →
    (t.exprTypes i).stepLens = (t.exprTypes j).stepLens → i = j
  /-- The numbers are `1, …, exprNum`, each in one entry. -/
  ids : ∀ id, (∃ i, i < exprListSize ∧ (t.exprTypes i).hash ≠ 0 ∧
    (t.exprTypes i).expressionId = id) ↔ 1 ≤ id ∧ id ≤ t.exprNum
  idUnique : ∀ i j, i < exprListSize → j < exprListSize → (t.exprTypes i).hash ≠ 0 →
    (t.exprTypes j).hash ≠ 0 → (t.exprTypes i).expressionId = (t.exprTypes j).expressionId → i = j
  /-- They follow the order of first insertion. -/
  order : t.exprNum = (insertions calls).length ∧ ∀ i, i < exprListSize → (t.exprTypes i).hash ≠ 0 →
      ((insertions calls)[(t.exprTypes i).expressionId - 1]?).map key =
        some ((t.exprTypes i).hash, (t.exprTypes i).stepLens)
  /-- No later call changes an entry. -/
  kept : ∀ more last entries, addAll t more = some (last, entries) →
    ∀ i, (t.exprTypes i).hash ≠ 0 → last.exprTypes i = t.exprTypes i
  /-- `find_expression` returns the entry with the key, and NULL when there is none. -/
  find : ∀ steps, 0 < calculateHash steps → (∀ i, findExpression t steps = some (some i) ↔ i < exprListSize ∧
      (t.exprTypes i).hash = calculateHash steps ∧ (t.exprTypes i).stepLens = steps.length) ∧
    (findExpression t steps = some none ↔ ∀ i, i < exprListSize →
      ¬ ((t.exprTypes i).hash = calculateHash steps ∧ (t.exprTypes i).stepLens = steps.length))
  /-- A full table refuses a new key and stays as it is. -/
  full : (∀ i, i < exprListSize → (t.exprTypes i).hash ≠ 0) →
    ∀ steps, 0 < calculateHash steps → (∀ i, i < exprListSize →
      ¬ ((t.exprTypes i).hash = calculateHash steps ∧ (t.exprTypes i).stepLens = steps.length)) →
    ∃ t', addExpression t steps = some (t', none) ∧ t'.exprTypes = t.exprTypes ∧ t'.exprNum = t.exprNum

lemma insertions_mem {s : List Int}
    (h : s ∈ calls.foldl register log) : s ∈ log ∨ s ∈ calls := by
  induction calls generalizing log with
  | nil => exact .inl h
  | cons steps rest ih =>
    rcases ih h with old | new
    · rcases register_mem old with older | rfl
      · exact .inl older
      · exact .inr (by simp)
    · exact .inr (by simp [new])

section Sound

variable {log : List (List Int)} {t : Table}

lemma keys_of_hash {i : Nat} (occupied : (t.exprTypes i).hash ≠ 0) :
    t.keys i = some ((t.exprTypes i).hash, (t.exprTypes i).stepLens) :=
  keys_eq_some.mpr ⟨occupied, rfl⟩

lemma keys_eq_key (nonzero : calculateHash steps ≠ 0) {i : Nat} : t.keys i = some (key steps) ↔
      (t.exprTypes i).hash = calculateHash steps ∧ (t.exprTypes i).stepLens = steps.length := by
  rw [keys_eq_some, key, Prod.mk.injEq]
  constructor
  · rintro ⟨_, hash, length⟩
    exact ⟨hash.symm, length.symm⟩
  · rintro ⟨hash, length⟩
    exact ⟨by rwa [hash], hash.symm, length.symm⟩

lemma Refines.id_range (refines : Refines log t) (marks : ∀ s ∈ log, calculateHash s ≠ 0)
    (id : Nat) : (∃ i, i < exprListSize ∧ (t.exprTypes i).hash ≠ 0 ∧
      (t.exprTypes i).expressionId = id) ↔ 1 ≤ id ∧ id ≤ t.exprNum := by
  rw [refines.count]
  constructor
  · rintro ⟨i, hi, occupied, rfl⟩
    obtain ⟨m, s, logged, _, number, _⟩ := refines.entry i _ hi (keys_of_hash occupied)
    have bound := (List.getElem?_eq_some_iff.mp logged).1
    omega
  · rintro ⟨low, high⟩
    have hm : id - 1 < log.length := by omega
    obtain ⟨i, hi, stored, number⟩ := refines.logged (id - 1) log[id - 1]
      (List.getElem?_eq_getElem hm) (marks _ (List.getElem_mem hm))
    exact ⟨i, hi, (keys_eq_some.mp stored).1, by omega⟩

lemma Refines.find (refines : Refines log t) (marked : Marked steps) :
    (∀ i, findExpression t steps = some (some i) ↔ i < exprListSize ∧
      (t.exprTypes i).hash = calculateHash steps ∧ (t.exprTypes i).stepLens = steps.length) ∧
    (findExpression t steps = some none ↔ ∀ i, i < exprListSize →
      ¬ ((t.exprTypes i).hash = calculateHash steps ∧ (t.exprTypes i).stepLens = steps.length)) := by
  have nonzero := marked.nonzero
  have bound := home_lt (key steps)
  have inside := marked.inside
  have hit := fun i => lookup_hit_iff (i := i) refines.reached bound
  by_cases used : t.exprNum = 0
  · have empty : ∀ i, (t.exprTypes i).hash = 0 := fun i => keys_eq_none.mp (refines.unused used i)
    constructor
    · intro i
      simp [findExpression, used, empty, nonzero.symm]
    · simp [findExpression, used, empty, nonzero.symm]
  · rw [findExpression_eq inside used]
    cases outcome : lookup exprListSize home t.keys (key steps) with
    | hit j =>
      obtain ⟨hj, stored⟩ := (hit j).mp outcome
      rw [keys_eq_key nonzero] at stored
      constructor
      · intro i
        rw [← keys_eq_key nonzero, ← hit i, outcome]
        simp
      · simp only [Option.some.injEq, reduceCtorEq, false_iff]
        exact fun none => none j hj stored
    | free | full =>
      have absent : ∀ i, ¬ (i < exprListSize ∧ (t.exprTypes i).hash = calculateHash steps ∧
          (t.exprTypes i).stepLens = steps.length) := by
        intro i
        rw [← keys_eq_key nonzero, ← hit i, outcome]
        simp
      exact ⟨fun i => by simp [absent i], by simpa using absent⟩

/-- A full table has no slot left for a new key. -/
lemma Refines.refuses (refines : Refines log t)
    (full : ∀ i, i < exprListSize → (t.exprTypes i).hash ≠ 0)
    (positive : 0 < calculateHash steps) (absent : ∀ i, i < exprListSize →
      ¬ ((t.exprTypes i).hash = calculateHash steps ∧ (t.exprTypes i).stepLens = steps.length)) :
    addExpression t steps = some ({ t with updateExprList := true }, none) := by
  have bound := home_lt (key steps)
  rw [addExpression_eq (homeIndex_of_nonneg (Int.le_of_lt positive)) refines.unused]
  rcases lookup_cases t.keys bound with ⟨c, _, _, here⟩ | ⟨c, _, _, empty, _⟩ | ⟨eq, _⟩
  · rw [keys_eq_key (by omega)] at here
    exact absurd here (absent _ (after_lt (by decide) c))
  · exact absurd (keys_eq_none.mp empty) (full _ (after_lt (by decide) c))
  · rw [eq]

/-- **The expression table over any calls with positive hashes.** -/
theorem table_sound (garbage : Nat → Nat → Int) (calls : List (List Int))
    (short : ∀ s ∈ calls, s.length ≤ exprSize) (positive : ∀ s ∈ calls, 0 < calculateHash s) :
    ∃ t entries, addAll (initial garbage) calls = some (t, entries) ∧ Sound calls t := by
  obtain ⟨t, entries, ran, refines⟩ := addAll_refines (refines_initial garbage) (by simp) short
    fun s member => marked_of_positive (positive s member)
  have positive' : ∀ s ∈ insertions calls, 0 < calculateHash s := by
    intro s member
    rcases insertions_mem member with none | call
    · cases none
    · exact positive s call
  have marks : ∀ s ∈ insertions calls, calculateHash s ≠ 0 := fun s member =>
    (positive' s member).ne'
  refine ⟨t, entries, ran, ?_⟩
  constructor
  · intro i hi occupied
    obtain ⟨m, s, logged, same, _⟩ := refines.entry i _ hi (keys_of_hash occupied)
    have hash : calculateHash s = (t.exprTypes i).hash := congrArg Prod.fst same
    have sign := positive' s (List.mem_of_getElem? logged)
    have slot : home ((t.exprTypes i).hash, (t.exprTypes i).stepLens) = ((t.exprTypes i).hash % 256).toNat := by
      rw [home, homeIndex, Int.tmod_eq_emod_of_nonneg (by omega)]
      rfl
    obtain ⟨d, hd, place, nonempty⟩ := refines.reached.path i _ hi (keys_of_hash occupied)
    rw [slot] at place nonempty
    refine ⟨d, hd, place, fun b hb empty => nonempty b hb ?_⟩
    exact keys_eq_none.mpr empty
  · intro i j hi hj occupied hash length
    exact refines.reached.distinct i j _ hi hj (keys_of_hash occupied)
      (keys_eq_some.mpr ⟨by rwa [← hash], by rw [hash, length]⟩)
  · exact refines.id_range marks
  · intro i j hi hj first second same
    exact refines.id_injective hi hj (keys_of_hash first) (keys_of_hash second) same
  · refine ⟨refines.count, fun i hi occupied => ?_⟩
    obtain ⟨m, s, logged, same, number, _⟩ := refines.entry i _ hi (keys_of_hash occupied)
    rw [number, Nat.add_sub_cancel]
    exact (congrArg (Option.map key) logged).trans (congrArg some same)
  · intro more last entries' ran' i occupied
    exact addAll_kept refines ran' i occupied
  · intro steps sign
    exact refines.find (marked_of_positive sign)
  · intro full steps sign absent
    exact ⟨_, refines.refuses full sign absent, rfl, rfl⟩

theorem table_sound_three : ∃ t entries,
    addAll (initial fun _ _ => 0) [[1, 0], [2, 5, 0], [1, 0]] = some (t, entries) ∧
      Sound [[1, 0], [2, 5, 0], [1, 0]] t :=
  table_sound (fun _ _ => 0) [[1, 0], [2, 5, 0], [1, 0]] (by decide) (by decide)

end Sound

/-! ## Which sequences a number stands for -/

section Identity

variable {log log' : List (List Int)} {t : Table} {calls : List (List Int)}
  {entries : List (Option ExprSteps)}

/-- A table that could hold all keys in use is never full for one of them. -/
lemma Refines.not_full (refines : Refines log t) (keys : Finset (Int × Nat))
    (few : keys.card ≤ exprListSize) (logKeys : ∀ s ∈ log, key s ∈ keys)
    (member : key steps ∈ keys) : lookup exprListSize home t.keys (key steps) ≠ .full := by
  intro full
  have others := fun i (hi : i < exprListSize) => lookup_full (home_lt (key steps)) full hi
  have card := Finset.card_le_card_of_injOn (s := Finset.range exprListSize)
    (t := keys.erase (key steps)) (fun i => (t.keys i).getD (key steps))
    (by
      intro i hi
      have hi' : i < exprListSize := by simpa using hi
      obtain ⟨other, stored, ne⟩ := others i hi'
      obtain ⟨m, s, logged, rfl, _⟩ := refines.entry i other hi' stored
      simp [stored, ne, logKeys s (List.mem_of_getElem? logged)])
    (by
      intro i hi j hj same
      have hi' : i < exprListSize := by simpa using hi
      have hj' : j < exprListSize := by simpa using hj
      obtain ⟨k, stored, _⟩ := others i hi'
      obtain ⟨l, stored', _⟩ := others j hj'
      simp only [stored, stored', Option.getD_some] at same
      exact refines.reached.distinct i j k hi' hj' stored (same ▸ stored'))
  rw [Finset.card_erase_of_mem member, Finset.card_range] at card
  have some : 0 < keys.card := Finset.card_pos.mpr ⟨_, member⟩
  omega

lemma Refines.log_unique (refines : Refines log t) {m n : Nat} {s s' : List Int}
    (first : log[m]? = some s) (second : log[n]? = some s') (same : key s = key s')
    (nonzero : calculateHash s ≠ 0) : m = n := by
  have hash : calculateHash s = calculateHash s' := congrArg Prod.fst same
  obtain ⟨i, hi, stored, number⟩ := refines.logged m s first nonzero
  obtain ⟨j, hj, stored', number'⟩ := refines.logged n s' second (hash ▸ nonzero)
  have slot := refines.reached.distinct i j _ hi hj stored (same ▸ stored')
  subst slot
  omega

/-- What calls return, in terms of the log before and after them. -/
structure Assigned (log : List (List Int)) (calls : List (List Int))
    (entries : List (Option ExprSteps)) (log' : List (List Int)) : Prop where
  grows : log <+: log'
  members : ∀ s ∈ log', s ∈ log ∨ s ∈ calls
  each : ∀ (i : Nat) s, calls[i]? = some s → ∃ (m : Nat) (origin : List Int) (e : ExprSteps),
    entries[i]? = some (some e) ∧ e.expressionId = m + 1 ∧ log'[m]? = some origin ∧
    key origin = key s ∧ e.stepList = origin ∧ (calculateHash s = 0 → origin = s ∧ log.length ≤ m)
  /-- A sequence with hash 0 gets a new number in every call. -/
  fresh : ∀ (i j : Nat) s (e e' : ExprSteps), i < j → calls[j]? = some s → calculateHash s = 0 →
    entries[i]? = some (some e) → entries[j]? = some (some e') → e.expressionId < e'.expressionId

lemma getElem?_of_prefix {m : Nat} {s : List Int} (grows : log <+: log') (h : log[m]? = some s) :
    log'[m]? = some s := by
  obtain ⟨more, rfl⟩ := grows
  exact (List.getElem?_append_left (List.getElem?_eq_some_iff.mp h).1).trans h

lemma Assigned.cons {middle : List (List Int)} {e : ExprSteps} {m : Nat}
    {origin : List Int} (rest : Assigned middle calls entries log') (grows : log <+: middle)
    (members : ∀ s ∈ middle, s ∈ log ∨ s = steps) (number : e.expressionId = m + 1)
    (logged : middle[m]? = some origin) (same : key origin = key steps)
    (list : e.stepList = origin) (zero : calculateHash steps = 0 → origin = steps ∧ log.length ≤ m) :
    Assigned log (steps :: calls) (some e :: entries) log' := by
  constructor
  · exact grows.trans rest.grows
  · intro s member
    rcases rest.members s member with old | call
    · rcases members s old with older | rfl
      · exact .inl older
      · exact .inr (by simp)
    · exact .inr (by simp [call])
  · intro i s call
    cases i with
    | zero =>
      obtain rfl : steps = s := by simpa using call
      exact ⟨m, origin, e, rfl, number, getElem?_of_prefix rest.grows logged, same, list, zero⟩
    | succ i =>
      obtain ⟨n, o, e', entry, number', logged', same', list', zero'⟩ :=
        rest.each i s (by simpa using call)
      refine ⟨n, o, e', by simpa using entry, number', logged', same', list', fun h => ?_⟩
      exact ⟨(zero' h).1, le_trans grows.length_le (zero' h).2⟩
  · intro i j s e1 e2 less call hash entry1 entry2
    obtain ⟨j, rfl⟩ : ∃ n, j = n + 1 := ⟨j - 1, by omega⟩
    simp only [List.getElem?_cons_succ] at call entry2
    cases i with
    | zero =>
      obtain rfl : e = e1 := by simpa using entry1
      obtain ⟨n, _, e', entry', number', _, _, _, zero'⟩ := rest.each j s call
      rw [entry2] at entry'
      cases entry'
      have bound := (List.getElem?_eq_some_iff.mp logged).1
      have later := (zero' hash).2
      omega
    | succ i =>
      exact rest.fresh i j s e1 e2 (by omega) call hash (by simpa using entry1) entry2

/-- Calls that never leave the table, with no more keys than it has slots, all
return an entry. -/
lemma addAll_assigned (refines : Refines log t) (keys : Finset (Int × Nat))
    (few : keys.card ≤ exprListSize) (logKeys : ∀ s ∈ log, key s ∈ keys) (callKeys : ∀ s ∈ calls, key s ∈ keys)
    (inside : ∀ s ∈ calls, 0 ≤ homeIndex (calculateHash s)) (short : ∀ s ∈ calls, s.length ≤ exprSize) :
    ∃ last entries log', addAll t calls = some (last, entries) ∧ Refines log' last ∧
      Assigned log calls entries log' := by
  induction calls generalizing log t with
  | nil =>
    refine ⟨t, [], log, rfl, refines, ⟨List.prefix_refl log, fun s h => .inl h, ?_, ?_⟩⟩
    · intro i s call
      simp at call
    · intro i j s e e' _ call
      simp at call
  | cons steps rest ih =>
    rw [List.forall_mem_cons] at callKeys inside short
    have first := addExpression_eq inside.1 refines.unused
    have bound := home_lt (key steps)
    cases outcome : lookup exprListSize home t.keys (key steps) with
    | hit i =>
      rw [outcome] at first
      obtain ⟨hi, stored⟩ := (lookup_hit_iff refines.reached bound).mp outcome
      obtain ⟨m, origin, logged, same, number, list⟩ := refines.entry i _ hi stored
      obtain ⟨last, entries, log', others, final, assigned⟩ := ih refines logKeys callKeys.2 inside.2 short.2
      refine ⟨last, _, log', addAll_cons.mpr ⟨t, some i, entries, first, others, rfl⟩, final, ?_⟩
      refine assigned.cons (List.prefix_refl log) (fun s h => .inl h) number logged same list ?_
      intro zero
      exact absurd (keys_eq_some.mp stored) (by
        rintro ⟨nonzero, eq⟩
        exact nonzero ((congrArg Prod.fst eq).symm.trans zero))
    | free i =>
      rw [outcome] at first
      have logKeys' : ∀ s ∈ log ++ [steps], key s ∈ keys :=
        List.forall_mem_append.mpr ⟨logKeys, List.forall_mem_singleton.mpr callKeys.1⟩
      obtain ⟨last, entries, log', others, final, assigned⟩ :=
        ih (refines.store outcome) logKeys' callKeys.2 inside.2 short.2
      refine ⟨last, _, log', addAll_cons.mpr ⟨_, some i, entries, first.trans (if_pos short.1), others, rfl⟩, final, ?_⟩
      refine assigned.cons (m := log.length) (List.prefix_append log [steps])
        (fun s h => by simpa using h) ?_ (by simp) rfl (stepList_store t i steps)
        (fun _ => ⟨rfl, le_refl _⟩)
      simp [store, refines.count]
    | full =>
      exact absurd outcome (refines.not_full keys few logKeys callKeys.1)

/-- Two different calls return one number when they agree in a key that leaves a
mark in the table. -/
lemma Assigned.ids (assigned : Assigned log calls entries log') {last : Table}
    (refines : Refines log' last) {i j : Nat} (ne : i ≠ j) {s s' : List Int} {e e' : ExprSteps}
    (first : calls[i]? = some s) (second : calls[j]? = some s')
    (entry : entries[i]? = some (some e)) (entry' : entries[j]? = some (some e')) :
    e.expressionId = e'.expressionId ↔ key s = key s' ∧ calculateHash s ≠ 0 := by
  obtain ⟨m, origin, _, there, number, logged, same, _⟩ := assigned.each i s first
  obtain ⟨n, origin', _, there', number', logged', same', _⟩ := assigned.each j s' second
  rw [entry] at there
  rw [entry'] at there'
  cases there
  cases there'
  constructor
  · intro ids
    obtain rfl : m = n := by omega
    rw [logged] at logged'
    cases logged'
    have keys : key s = key s' := same.symm.trans same'
    refine ⟨keys, fun zero => ?_⟩
    have zero' : calculateHash s' = 0 := (congrArg Prod.fst keys).symm.trans zero
    rcases Nat.lt_or_gt_of_ne ne with less | less
    · exact absurd ids (assigned.fresh i j s' e e' less second zero' entry entry').ne
    · exact absurd ids (assigned.fresh j i s e' e less first zero entry' entry).ne'
  · rintro ⟨keys, nonzero⟩
    have hash : calculateHash origin = calculateHash s := congrArg Prod.fst same
    have slot := refines.log_unique logged logged' (same.trans (keys.trans same'.symm)) (hash ▸ nonzero)
    omega

lemma addAll_inside {last : Table} (ran : addAll t calls = some (last, entries)) :
    ∀ s ∈ calls, 0 ≤ homeIndex (calculateHash s) := by
  induction calls generalizing t entries with
  | nil => simp
  | cons steps rest ih =>
    obtain ⟨t', r, entries', first, others, _⟩ := addAll_cons.mp ran
    intro s member
    rcases List.mem_cons.mp member with rfl | member
    · by_contra outside
      rw [addExpression_outside outside] at first
      cases first
    · exact ih others s member

/-- Every call returns an entry that holds its steps, and two calls return the
same number if and only if their steps are equal. -/
structure Identifies (calls : List (List Int)) (entries : List (Option ExprSteps)) : Prop where
  holds : ∀ (i : Nat) s, calls[i]? = some s → ∃ e : ExprSteps, entries[i]? = some (some e) ∧ e.stepList = s
  ids : ∀ (i j : Nat) s s' (e e' : ExprSteps), calls[i]? = some s → calls[j]? = some s' →
    entries[i]? = some (some e) → entries[j]? = some (some e') →
    (e.expressionId = e'.expressionId ↔ s = s')

/-- **When a number identifies a step sequence.** -/
theorem ids_identify_iff (garbage : Nat → Nat → Int) (calls : List (List Int))
    (short : ∀ s ∈ calls, s.length ≤ exprSize) (few : (calls.map key).toFinset.card ≤ exprListSize) :
    (∃ last entries, addAll (initial garbage) calls = some (last, entries) ∧ Identifies calls entries) ↔
    (∀ s ∈ calls, 0 ≤ homeIndex (calculateHash s)) ∧
      ∀ (i j : Nat) s s', i ≠ j → calls[i]? = some s → calls[j]? = some s' → key s = key s' →
        (s = s' ↔ calculateHash s ≠ 0) := by
  have callKeys : ∀ s ∈ calls, key s ∈ (calls.map key).toFinset := fun s h => by
    simpa using ⟨s, h, rfl⟩
  have run := fun inside => addAll_assigned (refines_initial garbage) _ few (by simp) callKeys inside short
  constructor
  · rintro ⟨last, entries, ran, identifies⟩
    have inside := addAll_inside ran
    obtain ⟨last', entries', log', ran', refines, assigned⟩ := run inside
    rw [ran] at ran'
    cases ran'
    refine ⟨inside, fun i j s s' ne first second keys => ?_⟩
    obtain ⟨e, entry, _⟩ := identifies.holds i s first
    obtain ⟨e', entry', _⟩ := identifies.holds j s' second
    rw [← identifies.ids i j s s' e e' first second entry entry',
      assigned.ids refines ne first second entry entry']
    exact ⟨fun h => h.2, fun h => ⟨keys, h⟩⟩
  · rintro ⟨inside, distinct⟩
    obtain ⟨last, entries, log', ran, refines, assigned⟩ := run inside
    refine ⟨last, entries, ran, ⟨fun i s call => ?_, ?_⟩⟩
    · obtain ⟨m, origin, e, entry, _, logged, same, list, zero⟩ := assigned.each i s call
      refine ⟨e, entry, list.trans ?_⟩
      by_cases hash : calculateHash s = 0
      · exact (zero hash).1
      · rcases assigned.members origin (List.mem_of_getElem? logged) with none | member
        · cases none
        · obtain ⟨j, call'⟩ := List.mem_iff_getElem?.mp member
          by_cases here : i = j
          · rw [← here, call] at call'
            exact (Option.some.inj call').symm
          · exact ((distinct i j s origin here call call' same.symm).mpr hash).symm
    · intro i j s s' e e' first second entry entry'
      by_cases here : i = j
      · subst here
        rw [first] at second
        rw [entry] at entry'
        cases second
        cases entry'
        exact ⟨fun _ => rfl, fun _ => rfl⟩
      · rw [assigned.ids refines here first second entry entry']
        constructor
        · rintro ⟨keys, nonzero⟩
          exact (distinct i j s s' here first second keys).mpr nonzero
        · rintro rfl
          exact ⟨rfl, (distinct i j s s here first second rfl).mp rfl⟩

/-- Two expressions that differ in length: their numbers identify them. -/
theorem ids_identify_two : ∃ last entries,
    addAll (initial fun _ _ => 0) [[1, 4, 0], [3, 6, 18, 0]] = some (last, entries) ∧
      Identifies [[1, 4, 0], [3, 6, 18, 0]] entries := by
  refine (ids_identify_iff (fun _ _ => 0) _ (by decide) (by decide)).mpr ⟨by decide, ?_⟩
  intro i j s s' ne first second keys
  have hi := (List.getElem?_eq_some_iff.mp first).1
  have hj := (List.getElem?_eq_some_iff.mp second).1
  simp only [List.length_cons, List.length_nil] at hi hj
  have distinct : (i = 0 ∧ j = 1) ∨ (i = 1 ∧ j = 0) := by omega
  rcases distinct with ⟨rfl, rfl⟩ | ⟨rfl, rfl⟩
  · cases first
    cases second
    exact absurd keys (by decide)
  · cases first
    cases second
    exact absurd keys (by decide)

/-- Two sequences of one length whose hashes agree get one number, and the entry
returned for the second holds the steps of the first. -/
theorem ids_collide :
    calculateHash [2, 5, 5, 18, 28, 0] = calculateHash [2, 4, 8, 18, 28, 0] ∧
    ((addAll (initial fun _ _ => 0) [[2, 5, 5, 18, 28, 0], [2, 4, 8, 18, 28, 0]]).map fun run =>
      run.2.map (Option.map fun e => (e.expressionId, e.stepList))) =
        some [some (1, [2, 5, 5, 18, 28, 0]), some (1, [2, 5, 5, 18, 28, 0])] := by
  decide

end Identity

end Hex.Kernel.ExprTable
