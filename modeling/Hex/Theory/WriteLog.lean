/-
# Theory.WriteLog — writes to a table, and dictionaries in insertion order

A log lists writes to a table in the order in which they happened; `latest k`
is the value of the last write to `k`, and `replay` carries the writes out on a
table. `firsts` lists the keys of a log in the order of their first write.

`Dict` is the dictionary of a scripting language: a new key goes to the end, a
key that is there keeps its place. `ofLog` builds one from a log; its keys are
the `firsts` of the log (`keys_ofLog`), and it maps each to its latest write
(`get?_ofLog`).
-/
import Mathlib.Data.List.Basic
import Mathlib.Data.List.Induction
import Mathlib.Data.List.Nodup
import Mathlib.Data.Prod.Basic
import Mathlib.Logic.Function.Basic

namespace Hex.Theory.WriteLog

variable {K V : Type} [DecidableEq K]

/-! ## Logs -/

/-- The value of the last write to `k`. -/
def latest (k : K) : List (K × V) → Option V
  | [] => none
  | (key, v) :: rest => (latest k rest).or (if key = k then some v else none)

def replay (log : List (K × V)) (table : K → V) : K → V :=
  log.foldl (fun table write => Function.update table write.1 write.2) table

@[simp] lemma latest_nil (k : K) : latest k ([] : List (K × V)) = none := rfl

lemma latest_append (k : K) (a b : List (K × V)) : latest k (a ++ b) = (latest k b).or (latest k a) := by
  induction a with
  | nil => simp
  | cons write a ih => simp only [List.cons_append, latest, ih, Option.or_assoc]

lemma latest_flatMap {A : Type} (k : K) (f : A → List (K × V)) (xs : List A) :
    latest k (xs.flatMap f) = xs.reverse.findSome? fun x => latest k (f x) := by
  induction xs with
  | nil => rfl
  | cons x xs ih => simp [latest_append, ih, List.findSome?_append]

lemma latest_concat (k key : K) (v : V) (log : List (K × V)) :
    latest k (log ++ [(key, v)]) = if key = k then some v else latest k log := by
  rw [latest_append]
  by_cases here : key = k <;> simp [latest, here]

lemma latest_map {W : Type} (g : V → W) (k : K) (log : List (K × V)) :
    latest k (log.map (Prod.map id g)) = (latest k log).map g := by
  induction log with
  | nil => rfl
  | cons write log ih => by_cases here : write.1 = k <;> simp [latest, ih, here]

lemma latest_eq_none {k : K} {log : List (K × V)} : latest k log = none ↔ ∀ write ∈ log, write.1 ≠ k := by
  induction log with
  | nil => simp
  | cons write log ih => by_cases here : write.1 = k <;> simp [latest, ih, here]

lemma latest_mem {k : K} {v : V} {log : List (K × V)} (found : latest k log = some v) : (k, v) ∈ log := by
  induction log with
  | nil => simp at found
  | cons write log ih =>
    rw [latest, Option.or_eq_some_iff] at found
    obtain later | ⟨-, here⟩ := found
    · exact List.mem_cons_of_mem _ (ih later)
    · simp only [Option.ite_none_right_eq_some, Option.some.injEq] at here
      obtain ⟨rfl, rfl⟩ := here
      exact List.mem_cons_self

/-- **What a table holds after the writes of a log.** -/
theorem replay_apply (log : List (K × V)) (table : K → V) (k : K) :
    replay log table k = (latest k log).getD (table k) := by
  induction log generalizing table with
  | nil => rfl
  | cons write log ih =>
    rw [replay, List.foldl_cons, ← replay, ih, latest]
    cases latest k log with
    | some v => rfl
    | none =>
      by_cases here : write.1 = k
      · simp [← here]
      · simp [Function.update_of_ne (Ne.symm here), here]

/-- The keys of a list in the order of their first occurrence. -/
def firsts : List K → List K
  | [] => []
  | k :: rest => k :: (firsts rest).filter (· ≠ k)

@[simp] lemma mem_firsts {k : K} {l : List K} : k ∈ firsts l ↔ k ∈ l := by
  induction l with
  | nil => simp [firsts]
  | cons key l ih => by_cases here : k = key <;> simp [firsts, ih, here]

lemma firsts_concat (l : List K) (k : K) : firsts (l ++ [k]) = if k ∈ l then firsts l else firsts l ++ [k] := by
  induction l with
  | nil => rfl
  | cons key l ih =>
    rw [List.cons_append, firsts, ih]
    by_cases later : k ∈ l
    · simp [later, firsts]
    · rw [if_neg later]
      by_cases here : k = key
      · simp [here, firsts]
      · simp [later, here, firsts]

lemma replay_append (a b : List (K × V)) (table : K → V) : replay (a ++ b) table = replay b (replay a table) := by
  simp [replay]

/-- Writes that leave every table as the values `found` say are known by their
latest values. -/
lemma replay_eq_iff [Nontrivial V] (log : List (K × V)) (found : K → Option V) :
    (∀ table : K → V, replay log table = fun k => (found k).getD (table k)) ↔ ∀ k, latest k log = found k := by
  constructor
  · intro same k
    -- a table that holds something else at `k` tells a write from no write
    have at_ : ∀ v : V, (latest k log).getD v = (found k).getD v := by
      intro v
      have here := congrFun (same fun _ => v) k
      rwa [replay_apply] at here
    obtain ⟨v, w, differ⟩ := exists_pair_ne V
    have first := at_ v
    have second := at_ w
    cases written : latest k log <;> cases expected : found k <;> simp_all
  · intro same table
    funext k
    rw [replay_apply, same]

/-! ## Dictionaries -/

/-- A sum over a list in which one entry alone counts. -/
lemma flatMap_single {α β : Type} {l : List α} {f : α → List β} {a : α}
    (distinct : l.Nodup) (member : a ∈ l) (others : ∀ b ∈ l, b ≠ a → f b = []) : l.flatMap f = f a := by
  obtain ⟨before, after, rfl⟩ := List.append_of_mem member
  have unique : a ∉ before ∧ a ∉ after := by
    rw [List.nodup_append] at distinct
    exact ⟨fun early => distinct.2.2 a early a (by simp) rfl, (List.nodup_cons.mp distinct.2.1).1⟩
  have none_ : ∀ part : List α, (∀ b ∈ part, b ∈ before ++ a :: after) → a ∉ part → part.flatMap f = [] := by
    intro part inside absent
    rw [List.flatMap_eq_nil_iff]
    intro b among
    exact others b (inside b among) fun same => absent (same ▸ among)
  rw [List.flatMap_append, List.flatMap_cons, none_ before (by simp +contextual) unique.1,
    none_ after (by simp +contextual) unique.2]
  simp

/-- Replace the value of a key, or put the key at the end. -/
def setEntry (k : K) (v : V) : List (K × V) → List (K × V)
  | [] => [(k, v)]
  | (key, w) :: rest => if key = k then (k, v) :: rest else (key, w) :: setEntry k v rest

lemma setEntry_keys (k : K) (v : V) (entries : List (K × V)) : (setEntry k v entries).map Prod.fst =
      if k ∈ entries.map Prod.fst then entries.map Prod.fst else entries.map Prod.fst ++ [k] := by
  induction entries with
  | nil => simp [setEntry]
  | cons entry rest ih =>
    by_cases here : entry.1 = k
    · simp [setEntry, here]
    · rw [setEntry, if_neg here, List.map_cons, ih]
      by_cases later : k ∈ rest.map Prod.fst
      · simp_all
      · simp_all [eq_comm]

lemma map_setEntry {W : Type} (g : V → W) (k : K) (v : V) (entries : List (K × V)) :
    (setEntry k v entries).map (Prod.map id g) = setEntry k (g v) (entries.map (Prod.map id g)) := by
  induction entries with
  | nil => rfl
  | cons entry rest ih =>
    rw [setEntry, List.map_cons]
    show _ = if entry.1 = k then _ else _
    split_ifs
    · rfl
    · rw [List.map_cons, ih]
      rfl

/-- A dictionary: its entries in the order in which their keys came in. -/
structure Dict (K V : Type) [DecidableEq K] where
  entries : List (K × V)
  distinct : (entries.map Prod.fst).Nodup

namespace Dict

def empty : Dict K V := ⟨[], List.nodup_nil⟩

def keys (d : Dict K V) : List K := d.entries.map Prod.fst

def get? (d : Dict K V) (k : K) : Option V := latest k d.entries

@[simp] lemma entries_empty : (empty : Dict K V).entries = [] := rfl

@[simp] lemma keys_empty : (empty : Dict K V).keys = [] := rfl

@[simp] lemma get?_empty (k : K) : (empty : Dict K V).get? k = none := rfl

/-- `d[k] = v`. -/
def set (d : Dict K V) (k : K) (v : V) : Dict K V where
  entries := setEntry k v d.entries
  distinct := by
    rw [setEntry_keys]
    split
    · exact d.distinct
    · rw [List.nodup_append]
      refine ⟨d.distinct, by simp, ?_⟩
      rintro a old b new rfl
      simp_all

lemma keys_set (d : Dict K V) (k : K) (v : V) : (d.set k v).keys = if k ∈ d.keys then d.keys else d.keys ++ [k] :=
  setEntry_keys k v d.entries

lemma mem_keys_set (d : Dict K V) (k key : K) (v : V) : key ∈ (d.set k v).keys ↔ key ∈ d.keys ∨ key = k := by
  rw [keys_set]
  split_ifs with old
  · exact ⟨.inl, fun either => either.elim id fun same => same ▸ old⟩
  · simp

lemma latest_setEntry {entries : List (K × V)} (distinct : (entries.map Prod.fst).Nodup) (k key : K) (v : V) :
    latest key (setEntry k v entries) = if key = k then some v else latest key entries := by
  induction entries with
  | nil => simp [setEntry, latest, eq_comm]
  | cons entry rest ih =>
    rw [List.map_cons, List.nodup_cons] at distinct
    by_cases here : entry.1 = k
    · have absent : latest k rest = none :=
        latest_eq_none.mpr fun write member same =>
          distinct.1 (here ▸ same ▸ List.mem_map_of_mem member)
      by_cases asked : key = k
      · simp [setEntry, here, latest, asked, absent]
      · simp [setEntry, here, latest, asked, Ne.symm asked]
    · rw [setEntry, if_neg here, latest, ih distinct.2, latest]
      by_cases asked : key = k
      · simp [asked]
      · simp [asked]

lemma get?_set (d : Dict K V) (k key : K) (v : V) : (d.set k v).get? key = if key = k then some v else d.get? key :=
  latest_setEntry d.distinct k key v

lemma get?_eq_none (d : Dict K V) (k : K) : d.get? k = none ↔ k ∉ d.keys := by
  rw [get?, latest_eq_none, keys, List.mem_map]
  constructor
  · rintro none ⟨write, member, same⟩
    exact none write member same
  · intro absent write member same
    exact absent ⟨write, member, same⟩

/-- `d[k] = f(d[k])` where a key that is not there starts from `init`. -/
def update (d : Dict K V) (k : K) (init : V) (f : V → V) : Dict K V :=
  d.set k (f ((d.get? k).getD init))

lemma get?_update (d : Dict K V) (k key : K) (init : V) (f : V → V) :
    (d.update k init f).get? key = if key = k then some (f ((d.get? k).getD init)) else d.get? key :=
  get?_set d k key _

lemma get?_of_mem {d : Dict K V} {k : K} (inside : k ∈ d.keys) : ∃ v, d.get? k = some v := by
  cases found : d.get? k with
  | none => exact absurd inside ((d.get?_eq_none k).mp found)
  | some v => exact ⟨v, rfl⟩

lemma mem_entries {d : Dict K V} {k : K} {v : V} : (k, v) ∈ d.entries ↔ d.get? k = some v := by
  constructor
  · intro member
    obtain ⟨entries, distinct⟩ := d
    induction entries with
    | nil => simp at member
    | cons entry rest ih =>
      rw [List.map_cons, List.nodup_cons] at distinct
      rw [get?, latest]
      obtain rfl | later := List.mem_cons.mp member
      · have absent : latest k rest = none :=
          latest_eq_none.mpr fun write inside same =>
            distinct.1 (List.mem_map.mpr ⟨write, inside, same⟩)
        simp [absent]
      · rw [show latest k rest = some v from ih distinct.2 later]
        rfl
  · intro found
    exact latest_mem found

/-- A loop over the entries in which one key alone counts. -/
lemma flatMap_entries {B : Type} (d : Dict K V) (k : K) (f : K × V → List B)
    (others : ∀ entry ∈ d.entries, entry.1 ≠ k → f entry = []) :
    d.entries.flatMap f = ((d.get? k).map fun v => f (k, v)).getD [] := by
  cases found : d.get? k with
  | none =>
    rw [get?_eq_none] at found
    rw [Option.map_none, Option.getD_none, List.flatMap_eq_nil_iff]
    intro entry member
    exact others entry member fun same => found (same ▸ List.mem_map_of_mem member)
  | some v =>
    have member : (k, v) ∈ d.entries := latest_mem found
    rw [Option.map_some, Option.getD_some]
    refine flatMap_single (List.Nodup.of_map _ d.distinct) member fun entry inside differ => ?_
    refine others entry inside fun same => differ ?_
    have value : d.get? entry.1 = some entry.2 := mem_entries.mp inside
    rw [same, found] at value
    exact Prod.ext same (Option.some.inj value).symm

def ofLog (log : List (K × V)) : Dict K V := log.foldl (fun d write => d.set write.1 write.2) empty

lemma ofLog_concat (log : List (K × V)) (k : K) (v : V) : ofLog (log ++ [(k, v)]) = (ofLog log).set k v := by
  simp [ofLog]

lemma keys_ofLog (log : List (K × V)) : (ofLog log).keys = firsts (log.map Prod.fst) := by
  induction log using List.reverseRecOn with
  | nil => rfl
  | append_singleton log write ih =>
    rw [ofLog_concat, keys_set, ih, List.map_append, List.map_singleton, firsts_concat]
    simp only [mem_firsts]

lemma get?_ofLog (log : List (K × V)) (k : K) : (ofLog log).get? k = latest k log := by
  induction log using List.reverseRecOn with
  | nil => rfl
  | append_singleton log write ih =>
    rw [ofLog_concat, get?_set, ih, latest_concat]
    simp only [eq_comm]

lemma entries_ofLog (log : List (K × V)) :
    (ofLog log).entries = log.foldl (fun entries write => setEntry write.1 write.2 entries) [] := by
  induction log using List.reverseRecOn with
  | nil => rfl
  | append_singleton log write ih =>
    rw [ofLog_concat, List.foldl_append, ← ih]
    rfl

end Dict

end Hex.Theory.WriteLog
