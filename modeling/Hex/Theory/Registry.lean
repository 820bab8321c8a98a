/-
# Theory.Registry — lists in which an entry is looked up, or appended

A registry is a list of entries. A request brings a test and an entry of its own:
the first entry the test accepts answers it, and when there is none the new entry
is appended. What a test accepts may change from request to request.

Two questions are answered here. How long a registry gets: when a test accepts
just the entries made under the same key, the new entries are at most the
distinct keys and the requests without one (`length_enterAll_le`). And where a
request is answered: in the entry it would find in the whole list, without growth
just when every request finds its entry (`placeAll_answers_iff`).
-/
import Mathlib.Data.List.ReduceOption
import Mathlib.Data.Finset.Card
import Mathlib.Data.List.Forall2
import Mathlib.Data.List.Induction
import Mathlib.Data.Finset.Dedup

namespace Hex.Theory.Registry

/-- A test, and the entry that is appended when the test accepts none. -/
structure Request (E : Type) where
  accepts : E → Bool
  entry : E

section Place

variable {E : Type} {entries : List E} {r : Request E} {j : Nat} {rs : List (Option (Request E))}
  {indices : List (Option Nat)}

/-- Answer one request; the second part is the index of its entry. -/
def place (entries : List E) (r : Request E) : List E × Nat :=
  match entries.findIdx? r.accepts with
  | some j => (entries, j)
  | none => (entries ++ [r.entry], entries.length)

/-- Answer requests in order; a `none` asks for nothing. -/
def placeAll : List E → List (Option (Request E)) → List E × List (Option Nat)
  | entries, [] => (entries, [])
  | entries, none :: rest =>
    let others := placeAll entries rest
    (others.1, none :: others.2)
  | entries, some r :: rest =>
    let placed := place entries r
    let others := placeAll placed.1 rest
    (others.1, some placed.2 :: others.2)

lemma place_hit (hit : entries.findIdx? r.accepts = some j) : place entries r = (entries, j) := by
  simp [place, hit]

lemma place_miss (miss : entries.findIdx? r.accepts = none) :
    place entries r = (entries ++ [r.entry], entries.length) := by
  simp [place, miss]

lemma prefix_place (entries : List E) (r : Request E) : entries <+: (place entries r).1 := by
  cases found : entries.findIdx? r.accepts with
  | some j => rw [place_hit found]
  | none =>
    rw [place_miss found]
    exact List.prefix_append entries [r.entry]

lemma mem_place {e : E} (member : e ∈ (place entries r).1) : e ∈ entries ∨ e = r.entry := by
  cases found : entries.findIdx? r.accepts with
  | some j =>
    rw [place_hit found] at member
    exact .inl member
  | none =>
    rw [place_miss found] at member
    exact (List.mem_append.mp member).imp_right List.mem_singleton.mp

/-- **Requests only append.** -/
theorem prefix_placeAll (rs : List (Option (Request E))) (entries : List E) : entries <+: (placeAll entries rs).1 := by
  induction rs generalizing entries with
  | nil => exact List.prefix_refl entries
  | cons r rest ih =>
    cases r with
    | none => exact ih entries
    | some r => exact (prefix_place entries r).trans (ih _)

lemma length_indices (rs : List (Option (Request E))) (entries : List E) :
    (placeAll entries rs).2.length = rs.length := by
  induction rs generalizing entries with
  | nil => rfl
  | cons r rest ih => cases r <;> simp [placeAll, ih]

/-! ## Where a request is answered -/

def Answers (entries : List E) : Option (Request E) → Option Nat → Prop
  | none, none => True
  | some r, some j => entries.findIdx? r.accepts = some j
  | _, _ => False

/-- The entry at the index is accepted or the request's own, and no earlier one is
accepted. -/
def Points (entries : List E) : Option (Request E) → Option Nat → Prop
  | none, none => True
  | some r, some j =>
    (∃ e, entries[j]? = some e ∧ (r.accepts e = true ∨ e = r.entry)) ∧
      ∀ m, m < j → ∀ e, entries[m]? = some e → r.accepts e = false
  | _, _ => False

lemma findIdx?_some_iff {p : E → Bool} : entries.findIdx? p = some j ↔ (∃ e, entries[j]? = some e ∧ p e = true) ∧
      ∀ m, m < j → ∀ e, entries[m]? = some e → p e = false := by
  rw [List.findIdx?_eq_some_iff_getElem]
  constructor
  · rintro ⟨bound, here, before⟩
    refine ⟨⟨_, List.getElem?_eq_getElem bound, here⟩, fun m below e at' => ?_⟩
    obtain ⟨bound', rfl⟩ := List.getElem?_eq_some_iff.mp at'
    simpa using before m below
  · rintro ⟨⟨e, at', here⟩, before⟩
    obtain ⟨bound, rfl⟩ := List.getElem?_eq_some_iff.mp at'
    refine ⟨bound, here, fun m below => ?_⟩
    simpa using before m below _ (List.getElem?_eq_getElem (Nat.lt_trans below bound))

/-- An entry is at the same index in a longer list. -/
lemma getElem?_extends {a b : List E} (extends' : a <+: b) (bound : j < a.length) : b[j]? = a[j]? := by
  obtain ⟨rest, rfl⟩ := extends'
  exact List.getElem?_append_left bound

lemma points_place {all : List E}
    (later : (place entries r).1 <+: all) : Points all (some r) (some (place entries r).2) := by
  cases found : entries.findIdx? r.accepts with
  | some j =>
    rw [place_hit found] at later ⊢
    have bound := (List.findIdx?_eq_some_iff_getElem.mp found).1
    obtain ⟨⟨e, at', here⟩, before⟩ := findIdx?_some_iff.mp found
    refine ⟨⟨e, ?_, .inl here⟩, fun m below e' at'' => ?_⟩
    · rw [getElem?_extends later bound, at']
    · rw [getElem?_extends later (Nat.lt_trans below bound)] at at''
      exact before m below e' at''
  | none =>
    rw [place_miss found] at later ⊢
    have shorter := (List.prefix_append entries [r.entry]).trans later
    refine ⟨⟨r.entry, ?_, .inr rfl⟩, fun m below e at' => ?_⟩
    · rw [getElem?_extends later (by simp)]
      simp
    · rw [getElem?_extends shorter below] at at'
      have rejected := List.findIdx?_eq_none_iff.mp found e (List.mem_of_getElem? at')
      simpa using rejected

/-- **Where each request is answered, in the registry as it is left.** -/
theorem placeAll_points (rs : List (Option (Request E))) (entries : List E) :
    List.Forall₂ (Points (placeAll entries rs).1) rs (placeAll entries rs).2 := by
  suffices all : ∀ (rs : List (Option (Request E))) (entries : List E) (all : List E),
      (placeAll entries rs).1 <+: all → List.Forall₂ (Points all) rs (placeAll entries rs).2 from
    all rs entries _ (List.prefix_refl _)
  intro rs
  induction rs with
  | nil => exact fun _ _ _ => .nil
  | cons r rest ih =>
    intro entries all later
    cases r with
    | none => exact .cons trivial (ih entries all later)
    | some r =>
      exact .cons (points_place ((prefix_placeAll rest _).trans later)) (ih _ all later)

/-- **How one request of many is answered**: in a registry that holds old entries and
those of earlier requests, and that later requests only append to. -/
theorem placeAll_at (rs : List (Option (Request E))) (entries : List E) {i : Nat}
    (here : rs[i]? = some (some r)) : ∃ before : List E,
      (placeAll entries rs).2[i]? = some (some (place before r).2) ∧
      (place before r).1 <+: (placeAll entries rs).1 ∧
      ∀ e ∈ before, e ∈ entries ∨ ∃ i' r', i' < i ∧ rs[i']? = some (some r') ∧ e = r'.entry := by
  induction rs generalizing entries i with
  | nil => simp at here
  | cons first rest ih =>
    cases i with
    | zero =>
      cases here
      exact ⟨entries, rfl, prefix_placeAll rest _, fun e member => .inl member⟩
    | succ i =>
      have later : ∀ entries' : List E, _ := fun entries' => ih entries' here
      cases first with
      | none =>
        obtain ⟨before, index, grows, origin⟩ := later entries
        refine ⟨before, index, grows, fun e member => (origin e member).imp_right ?_⟩
        rintro ⟨i', r', below, at', rfl⟩
        exact ⟨i' + 1, r', by omega, at', rfl⟩
      | some f =>
        obtain ⟨before, index, grows, origin⟩ := later (place entries f).1
        refine ⟨before, index, grows, fun e member => ?_⟩
        obtain old | ⟨i', r', below, at', rfl⟩ := origin e member
        · exact (mem_place old).imp_right fun own => ⟨0, f, by omega, rfl, own⟩
        · exact .inr ⟨i' + 1, r', by omega, at', rfl⟩

lemma request_of_index {i : Nat} (here : (placeAll entries rs).2[i]? = some (some j)) :
    (∃ r, rs[i]? = some (some r)) ∧ j < (placeAll entries rs).1.length := by
  have lengths := length_indices rs entries
  have bound : i < rs.length := lengths ▸ (List.getElem?_eq_some_iff.mp here).1
  have points := (placeAll_points rs entries).get bound (lengths ▸ bound)
  simp only [List.get_eq_getElem] at points
  rw [List.getElem?_eq_getElem (lengths ▸ bound), Option.some.injEq] at here
  rw [here] at points
  cases asked : rs[i] with
  | none =>
    rw [asked] at points
    exact points.elim
  | some r =>
    rw [asked] at points
    obtain ⟨⟨e, at', _⟩, _⟩ := points
    exact ⟨⟨r, asked ▸ List.getElem?_eq_getElem bound⟩, (List.getElem?_eq_some_iff.mp at').1⟩

lemma placeAll_of_answers (answers : List.Forall₂ (Answers entries) rs indices) :
    placeAll entries rs = (entries, indices) := by
  induction answers with
  | nil => rfl
  | @cons r j rest others here _ ih =>
    match r, j, here with
    | none, none, _ => simp [placeAll, ih]
    | some r, some j, here => simp [placeAll, place_hit here, ih]

lemma Answers.lt {r : Option (Request E)} (here : Answers entries r (some j)) : j < entries.length := by
  cases r with
  | none => exact here.elim
  | some r => exact (List.findIdx?_eq_some_iff_getElem.mp here).1

/-- **Requests are answered by old entries just when each of them finds its own.** -/
theorem placeAll_answers_iff : List.Forall₂ (Answers entries) rs indices ↔
      (placeAll entries rs).2 = indices ∧ ∀ j, some j ∈ indices → j < entries.length := by
  constructor
  · intro answers
    refine ⟨by rw [placeAll_of_answers answers], fun j member => ?_⟩
    induction answers with
    | nil => cases member
    | cons here _ ih =>
      obtain rfl | later := List.mem_cons.mp member
      · exact here.lt
      · exact ih later
  · rintro ⟨rfl, old⟩
    induction rs with
    | nil => exact .nil
    | cons r rest ih =>
      cases r with
      | none => exact .cons trivial (ih fun j member => old j (List.mem_cons_of_mem _ member))
      | some r =>
        cases found : entries.findIdx? r.accepts with
        | none =>
          -- the index of an appended entry is not that of an old one
          have bound := old (place entries r).2 List.mem_cons_self
          rw [place_miss found] at bound
          exact absurd bound (Nat.lt_irrefl _)
        | some j =>
          simp only [placeAll, place_hit found] at old ⊢
          exact .cons found (ih fun j member => old j (List.mem_cons_of_mem _ member))

lemma forall₂_answers : List.Forall₂ (Answers entries) rs indices ↔ rs.length = indices.length ∧
      (∀ (i : Nat) r, rs[i]? = some (some r) → ∃ j, indices[i]? = some (some j) ∧ entries.findIdx? r.accepts = some j) ∧
      ∀ i : Nat, rs[i]? = some none → indices[i]? = some none := by
  induction rs generalizing indices with
  | nil =>
    cases indices with
    | nil | cons => simp
  | cons r rest ih =>
    cases indices with
    | nil => simp
    | cons j others =>
      rw [List.forall₂_cons, ih]
      constructor
      · rintro ⟨here, length, found, skipped⟩
        refine ⟨by simp [length], fun i r' at' => ?_, fun i at' => ?_⟩
        · cases i with
          | zero =>
            cases at'
            cases j with
            | none => exact here.elim
            | some j => exact ⟨j, rfl, here⟩
          | succ i => exact found i r' at'
        · cases i with
          | zero =>
            cases at'
            cases j with
            | none => rfl
            | some j => exact here.elim
          | succ i => exact skipped i at'
      · rintro ⟨length, found, skipped⟩
        refine ⟨?_, by simpa using length, fun i r' at' => found (i + 1) r' at',
          fun i at' => skipped (i + 1) at'⟩
        cases r with
        | none =>
          cases skipped 0 rfl
          trivial
        | some r =>
          obtain ⟨j, at', here⟩ := found 0 r rfl
          cases at'
          exact here

/-! ## How long a registry gets -/

def enterAll (entries : List E) (rs : List (Request E)) : List E :=
  rs.foldl (fun entries r => (place entries r).1) entries

lemma placeAll_entries (rs : List (Option (Request E))) (entries : List E) :
    (placeAll entries rs).1 = enterAll entries rs.reduceOption := by
  induction rs generalizing entries with
  | nil => rfl
  | cons r rest ih =>
    cases r with
    | none => exact ih entries
    | some r => exact ih _

lemma mem_enterAll {rs : List (Request E)} {e : E}
    (member : e ∈ enterAll entries rs) : e ∈ entries ∨ ∃ r ∈ rs, e = r.entry := by
  induction rs generalizing entries with
  | nil => exact .inl member
  | cons r rest ih =>
    have later : e ∈ enterAll (place entries r).1 rest := member
    obtain old | ⟨r', inside, rfl⟩ := ih later
    · exact (mem_place old).imp_right fun own => ⟨r, List.mem_cons_self, own⟩
    · exact .inr ⟨r', List.mem_cons_of_mem _ inside, rfl⟩

lemma Points.exists_entry {j : Option Nat}
    (points : Points entries (some r) j) : ∃ e ∈ entries, r.accepts e = true ∨ e = r.entry := by
  cases j with
  | none => exact points.elim
  | some j =>
    obtain ⟨⟨e, here, answered⟩, _⟩ := points
    exact ⟨e, List.mem_of_getElem? here, answered⟩

/-- Every request has an entry in the end. -/
lemma exists_answer (entries : List E) (member : some r ∈ rs) :
    ∃ e ∈ (placeAll entries rs).1, r.accepts e = true ∨ e = r.entry := by
  have points := placeAll_points rs entries
  revert points
  generalize placeAll entries rs = placed
  intro points
  generalize placed.2 = indices at points
  induction points with
  | nil => cases member
  | cons here _ ih =>
    obtain rfl | later := List.mem_cons.mp member
    · exact here.exists_entry
    · exact ih later

lemma enterAll_concat (entries : List E) (rs : List (Request E)) (r : Request E) :
    enterAll entries (rs ++ [r]) = (place (enterAll entries rs) r).1 := by
  simp [enterAll]

end Place

section Count

variable {K : Type} [DecidableEq K] {a b : List (Option K)}

/-- The requests without a key, and the distinct keys of the others. -/
def needed (keys : List (Option K)) : Nat := keys.count none + keys.reduceOption.toFinset.card

omit [DecidableEq K] in
lemma nodup_concat_key {keys : List (Option K)} (distinct : keys.reduceOption.Nodup)
    {k : Option K} (new : k = none ∨ k ∉ keys) : (keys ++ [k]).reduceOption.Nodup := by
  cases k with
  | none => simpa [List.reduceOption_append] using distinct
  | some k =>
    have absent : k ∉ keys.reduceOption := by
      rw [List.reduceOption_mem_iff]
      simpa using new
    rw [List.reduceOption_append, List.nodup_append]
    refine ⟨distinct, by simp, fun a member b member' => ?_⟩
    have eq : b = k := by simpa using member'
    rintro rfl
    exact absent (eq ▸ member)

lemma needed_of_nodup {keys : List (Option K)} (distinct : keys.reduceOption.Nodup) : needed keys = keys.length := by
  rw [needed, List.toFinset_card_of_nodup distinct]
  induction keys with
  | nil => rfl
  | cons k keys ih =>
    cases k with
    | none =>
      have := ih distinct
      simp only [List.count_cons_self, List.reduceOption_cons_of_none, List.length_cons]
      omega
    | some k =>
      have := ih (List.nodup_cons.mp (by simpa using distinct)).2
      simp only [ne_eq, reduceCtorEq, not_false_eq_true, List.count_cons_of_ne,
        List.reduceOption_cons_of_some, List.length_cons]
      omega

lemma needed_le (sub : a.Sublist b) : needed a ≤ needed b := by
  apply Nat.add_le_add (sub.count_le none)
  apply Finset.card_le_card
  intro k member
  rw [List.mem_toFinset, List.reduceOption_mem_iff] at member ⊢
  exact sub.subset member

lemma needed_congr (count : a.count none = b.count none)
    (same : ∀ k, some k ∈ a ↔ some k ∈ b) : needed a = needed b := by
  have sets : a.reduceOption.toFinset = b.reduceOption.toFinset := by
    ext k
    simp only [List.mem_toFinset, List.reduceOption_mem_iff, same k]
  rw [needed, needed, count, sets]

lemma needed_map_le {L : Type} [DecidableEq L] (f : K → L) (keys : List (Option K)) :
    needed (keys.map (Option.map f)) ≤ needed keys := by
  have count : (keys.map (Option.map f)).count none = keys.count none := by
    induction keys with
    | nil => rfl
    | cons k keys ih => cases k <;> simp [ih]
  have sets : (keys.map (Option.map f)).reduceOption.toFinset = keys.reduceOption.toFinset.image f := by
    rw [List.reduceOption_map]
    ext l
    simp
  rw [needed, needed, count, sets]
  exact Nat.add_le_add_left Finset.card_image_le _

variable {C E : Type} (req : C → Request E) (key : C → Option K)

/-- A later request accepts the entry of an earlier one just when they have the same
key. -/
def Keyed (c c' : C) : Prop :=
  (req c').accepts (req c).entry = true ↔ key c ≠ none ∧ key c = key c'

/-- Which requests have left an entry: no two with the same key, and one for each
key when no old entry is ever accepted. -/
structure Made (entries : List E) (cs ds : List C) : Prop where
  sublist : ds.Sublist cs
  entries_eq : enterAll entries (cs.map req) = entries ++ ds.map fun d => (req d).entry
  distinct : (ds.map key).reduceOption.Nodup
  covers : (∀ c ∈ cs, ∀ e ∈ entries, (req c).accepts e = false) → (ds.map key).count none = (cs.map key).count none ∧
      ∀ k, some k ∈ cs.map key → some k ∈ ds.map key

variable {req key}

lemma Made.accepted {entries : List E} {cs ds : List C} (made : Made req key entries cs ds)
    {r : Request E} : (enterAll entries (cs.map req)).findIdx? r.accepts = none ↔
      (∀ e ∈ entries, r.accepts e = false) ∧ ∀ d ∈ ds, r.accepts (req d).entry = false := by
  rw [made.entries_eq, List.findIdx?_eq_none_iff]
  simp only [List.mem_append, List.mem_map]
  constructor
  · intro rejected
    exact ⟨fun e member => by simpa using rejected e (.inl member),
      fun d member => by simpa using rejected _ (.inr ⟨d, member, rfl⟩)⟩
  · rintro ⟨old, new⟩ e (member | ⟨d, member, rfl⟩)
    · simpa using old e member
    · simpa using new d member

lemma exists_made (entries : List E) {cs : List C} (keyed : cs.Pairwise (Keyed req key)) :
    ∃ ds, Made req key entries cs ds := by
  induction cs using List.reverseRecOn with
  | nil => exact ⟨[], .slnil, by simp [enterAll], by simp, by simp⟩
  | append_singleton cs c ih =>
    obtain ⟨before, _, last⟩ := List.pairwise_append.mp keyed
    obtain ⟨ds, made⟩ := ih before
    have pair : ∀ d ∈ ds, Keyed req key d c := fun d member =>
      last d (made.sublist.subset member) c (by simp)
    have entered : enterAll entries ((cs ++ [c]).map req) = (place (enterAll entries (cs.map req)) (req c)).1 := by
      rw [List.map_append, List.map_singleton, enterAll_concat]
    cases found : (enterAll entries (cs.map req)).findIdx? (req c).accepts with
    | some j =>
      refine ⟨ds, made.sublist.trans (List.sublist_append_left cs [c]), ?_, made.distinct, ?_⟩
      · rw [entered, place_hit found, made.entries_eq]
      · intro old
        obtain ⟨count, known⟩ := made.covers fun c' member => old c' (by simp [member])
        -- the entry that is accepted is a new one, so the key is known
        obtain ⟨d, member, accepted⟩ : ∃ d ∈ ds, (req c).accepts (req d).entry = true := by
          by_contra none
          have miss := made.accepted.mpr ⟨old c (by simp), fun d member => by
            simpa using fun accepted => none ⟨d, member, accepted⟩⟩
          rw [found] at miss
          cases miss
        obtain ⟨some', same⟩ := (pair d member).mp accepted
        have here : key c ∈ ds.map key := same ▸ List.mem_map_of_mem member
        refine ⟨?_, fun k member' => ?_⟩
        · rw [List.map_append, List.count_append, count, List.map_singleton,
            List.count_singleton]
          simp [← same, some']
        · rw [List.map_append, List.map_singleton] at member'
          obtain inside | eq := List.mem_append.mp member'
          · exact known k inside
          · rw [List.mem_singleton.mp eq]
            exact here
    | none =>
      obtain ⟨rejectedOld, rejectedNew⟩ := made.accepted.mp found
      have new : key c = none ∨ key c ∉ ds.map key := by
        by_contra known
        rw [not_or, not_not] at known
        obtain ⟨d, member, same⟩ := List.mem_map.mp known.2
        have accepted := (pair d member).mpr ⟨same ▸ known.1, same⟩
        rw [rejectedNew d member] at accepted
        cases accepted
      refine ⟨ds ++ [c], made.sublist.append (List.Sublist.refl _), ?_, ?_, ?_⟩
      · rw [entered, place_miss found, made.entries_eq]
        simp
      · rw [List.map_append]
        exact nodup_concat_key made.distinct new
      · intro old
        obtain ⟨count, known⟩ := made.covers fun c' member => old c' (by simp [member])
        refine ⟨by simp [count], fun k member => ?_⟩
        rw [List.map_append, List.mem_append] at member ⊢
        exact member.imp (known k) id

/-- **A registry grows by what is needed at most.** -/
theorem length_enterAll_le (entries : List E) {cs : List C} (keyed : cs.Pairwise (Keyed req key)) :
    (enterAll entries (cs.map req)).length ≤ entries.length + needed (cs.map key) := by
  obtain ⟨ds, made⟩ := exists_made entries keyed
  have few := needed_le (made.sublist.map key)
  rw [needed_of_nodup made.distinct, List.length_map] at few
  rw [made.entries_eq, List.length_append, List.length_map]
  omega

/-- **It grows by all that is needed when no old entry is accepted.** -/
theorem length_enterAll_eq (entries : List E) {cs : List C} (keyed : cs.Pairwise (Keyed req key))
    (old : ∀ c ∈ cs, ∀ e ∈ entries, (req c).accepts e = false) :
    (enterAll entries (cs.map req)).length = entries.length + needed (cs.map key) := by
  obtain ⟨ds, made⟩ := exists_made entries keyed
  obtain ⟨count, known⟩ := made.covers old
  have same := needed_congr count fun k =>
    ⟨fun member => (made.sublist.map key).subset member, known k⟩
  rw [needed_of_nodup made.distinct, List.length_map] at same
  rw [made.entries_eq, List.length_append, List.length_map, same]

end Count

end Hex.Theory.Registry
