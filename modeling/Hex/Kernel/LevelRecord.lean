/-
# Kernel.LevelRecord — what a place has recorded

`Pending` and `Recorded` say what the two best arrays hold before and after a
run at a place is measured. With them every run refines the walk of
`LevelSchedule`:

* `explainOnePlan_recorded`: measuring a run at a place keeps the place and
  turns `Pending` into `Recorded`;
* `decideLevels_at`: a decision from a recorded place reaches the next one.
-/
import Hex.Kernel.LevelSchedule

namespace Hex.Kernel.LevelSearch

section Records

variable {T : Type} [Zero T]

/-- The best arrays while a run at a place executes. `minExprTime = 0` means
that nothing has been recorded for the slot being varied. -/
def Pending (E : Nat) (place : Place) (s : Search T) : Prop :=
  match place with
  | .start => s.useTheBest = false ∧ s.minExprTime = 0
  | .uniform c =>
    s.useTheBest = false ∧ (s.minExprTime = 0 ∨ c = 3 ∧ (s.bestCurrentJITLevels 0).Low)
  | .low j _ =>
    s.useTheBest = false ∧ (∀ i, i < j → (s.bestCurrentJITLevels i).Low) ∧
      (s.minExprTime = 0 ∨ (s.bestCurrentJITLevels j).Low)
  | .lowBest =>
    (∀ i, i < E → (s.bestCurrentJITLevels i).Computed) ∧
      (s.minExprTime = 0 ∨ ∀ i, i < E → i ≠ 0 → (s.bestCurrentJITLevels i).Flat)
  | .opt j =>
    s.useTheBest = false ∧ (∀ i, i < E → (s.bestCurrentJITLevels i).Computed) ∧
      (s.minExprTime = 0 ∨ ∀ i, i < E → i ≠ j ∨ 1 ≤ j → (s.bestCurrentJITLevels i).Flat)
  | .optBest | .settled => True

/-- The best arrays after a run at a place was measured. -/
def Recorded (E : Nat) (place : Place) (s : Search T) : Prop :=
  match place with
  | .start => s.minExprTime = 0
  | .uniform c => (c < 3 ∧ s.minExprTime = 0) ∨ (c = 3 ∧ (s.bestCurrentJITLevels 0).Low)
  | .low j _ => ∀ i, i ≤ j → (s.bestCurrentJITLevels i).Low
  | .lowBest => Pending E .lowBest s
  | .opt j =>
    (∀ i, i < E → (s.bestCurrentJITLevels i).Computed) ∧ ∀ i, i < E → i ≠ j ∨ 1 ≤ j → (s.bestCurrentJITLevels i).Flat
  | .optBest | .settled => True

lemma Recorded.pending {E : Nat} {place : Place} {s : Search T} (recorded : Recorded E place s)
    (off : s.useTheBest = false) : Pending E place s := by
  cases place with
  | start => exact ⟨off, recorded⟩
  | uniform c =>
    rcases recorded with ⟨_, none⟩ | third
    · exact ⟨off, .inl none⟩
    · exact ⟨off, .inr third⟩
  | low j l => exact ⟨off, fun i below => recorded i (Nat.le_of_lt below), .inr (recorded j le_rfl)⟩
  | lowBest => exact recorded
  | opt j => exact ⟨off, recorded.1, .inr recorded.2⟩
  | optBest | settled => trivial

end Records

section Measure

variable {T : Type} [Zero T] [LinearOrder T] {E : Nat} {s : Search T} {cfg : Settings}

omit [Zero T] [LinearOrder T] in
lemma keepOPT3_flat (t : T) (s : Search T) (i : Nat) (inside : i < s.currentExprNum)
    (other : i ≠ s.reserved2) (computed : (s.bestCurrentJITLevels i).Computed) :
    ((keepOPT3 (recordSlot t s)).bestCurrentJITLevels i).Flat := by
  have same : (recordSlot t s).bestCurrentJITLevels i = s.bestCurrentJITLevels i := by
    simp only [recordSlot]
    split_ifs
    · exact Function.update_of_ne other _ _
    · rfl
  cases cell : s.bestCurrentJITLevels i with
  | mk level written =>
    rw [cell] at computed same
    obtain ⟨rfl, levels⟩ := computed
    simp only [keepOPT3, same, LevelCell.Flat, stored]
    rcases levels with rfl | rfl | rfl | rfl <;> simp [recordSlot, inside, other]

omit [Zero T] [LinearOrder T] in
lemma keepOPT3_self (t : T) (s : Search T) (inside : s.reserved2 < s.currentExprNum) :
    (keepOPT3 (recordSlot t s)).bestCurrentJITLevels s.reserved2 = s.currentExprJITLevels s.reserved2 := by
  simp [keepOPT3, recordSlot, inside]

/-- A run that is not recorded was preceded by one that was. -/
lemma not_recorded {m t : T} {P : Prop} (skip : ¬ (m = 0 ∨ t < m)) (pending : m = 0 ∨ P) : P := by
  rcases pending with zero | done
  · exact absurd (Or.inl zero) skip
  · exact done

lemma recordExpr_recorded {place : Place} (t : T) (some : 1 ≤ E)
    (here : At E place s.position) (pending : Pending E place s) : Recorded E place (recordExpr t s) := by
  obtain ⟨count, here⟩ := here
  simp only [Search.position] at count here
  cases place with
  | start =>
    obtain ⟨off, none⟩ := pending
    simp [recordExpr, off, here.1, Recorded, none]
  | uniform c =>
    obtain ⟨off, pending⟩ := pending
    obtain ⟨-, high, round, slot, no3, vector⟩ := here
    simp only [recordExpr, off, Bool.false_eq_true, if_false, round, no3]
    by_cases early : c < 3
    · have none : s.minExprTime = 0 := by
        rcases pending with none | ⟨rfl, -⟩
        · exact none
        · omega
      simp [Nat.not_le.mpr early, Recorded, early, none]
    · have third : c = 3 := by omega
      subst third
      split_ifs with taken
      · have first : 0 < s.currentExprNum := by omega
        simp only [Recorded, recordSlot, slot, first, if_true, Function.update_self]
        exact .inr ⟨by trivial, .inl (vector 0 (by omega))⟩
      · exact .inr (not_recorded (fun h => taken ⟨le_refl 3, h⟩) pending)
  | low j l =>
    obtain ⟨off, below, pending⟩ := pending
    obtain ⟨inside, level, round, slot, no3, vector⟩ := here
    have self : (s.currentExprJITLevels j).Low := by
      rw [vector j inside, if_pos rfl]
      rcases level with rfl | rfl
      · exact .inr (.inl rfl)
      · exact .inr (.inr rfl)
    simp only [recordExpr, off, Bool.false_eq_true, if_false, round, no3, le_refl, true_and]
    intro i hi
    split_ifs with taken
    · have bound : j < s.currentExprNum := by omega
      simp only [recordSlot, slot, bound, if_true]
      by_cases same : i = j
      · subst same
        rwa [Function.update_self]
      · rw [Function.update_of_ne same]
        exact below i (by omega)
    · by_cases same : i = j
      · subst same
        exact not_recorded taken pending
      · exact below i (by omega)
  | lowBest =>
    obtain ⟨computed, pending⟩ := pending
    obtain ⟨round, slot, with3, vector⟩ := here
    simp only [recordExpr, round, with3, le_refl, true_and, if_true]
    split_ifs with best taken
    · exact ⟨computed, pending⟩
    · have flat : ∀ i, i < E → i ≠ 0 →
          ((keepOPT3 (recordSlot t s)).bestCurrentJITLevels i).Flat := fun i hi other =>
        keepOPT3_flat t s i (by omega) (by omega) (computed i hi)
      refine ⟨fun i hi => ?_, .inr flat⟩
      by_cases same : i = 0
      · have self := keepOPT3_self t s (by omega)
        rw [slot] at self
        rw [same, self]
        exact (vector 0 (by omega)).computed
      · exact (flat i hi same).computed
    · exact ⟨computed, pending⟩
  | opt j =>
    obtain ⟨off, computed, pending⟩ := pending
    obtain ⟨inside, round, slot, with3, vector⟩ := here
    simp only [recordExpr, off, Bool.false_eq_true, if_false, round, with3, le_refl, true_and,
      if_true]
    split_ifs with taken
    · have flat : ∀ i, i < E → ((keepOPT3 (recordSlot t s)).bestCurrentJITLevels i).Flat := by
        intro i hi
        by_cases same : i = j
        · have self := keepOPT3_self t s (by omega)
          rw [slot] at self
          rw [same, self, vector j inside, if_pos rfl]
          exact .inr rfl
        · exact keepOPT3_flat t s i (by omega) (by omega) (computed i hi)
      exact ⟨fun i hi => (flat i hi).computed, fun i hi _ => flat i hi⟩
    · exact ⟨computed, not_recorded taken pending⟩
  | optBest | settled => trivial

lemma recordTotal_pending {place : Place} (t : T)
    (pending : Pending E place s) : Pending E place (recordTotal t s) := by
  unfold recordTotal
  split_ifs
  · cases place <;> exact pending
  · exact pending

lemma explainOnePlan_recorded {place : Place} (t : T)
    (on : cfg.enableME = true) (some : 1 ≤ E) (here : At E place s.position)
    (pending : Pending E place s) : Recorded E place (explainOnePlan cfg t s) := by
  simp only [explainOnePlan, on, if_true]
  refine recordExpr_recorded t some ?_ (recordTotal_pending t pending)
  rwa [recordTotal_position]

/-- The slot record leaves the global best alone. -/
lemma explainOnePlan_bestJITLevels (t : T) (s : Search T) (on : cfg.enableME = true) :
    (explainOnePlan cfg t s).bestJITLevels = (recordTotal t s).bestJITLevels := by
  simp only [explainOnePlan, on, if_true, recordExpr, keepOPT3, recordSlot]
  split_ifs <;> rfl

lemma explainOnePlan_minTotalTime (t : T) (s : Search T) (on : cfg.enableME = true) :
    (explainOnePlan cfg t s).minTotalTime = (recordTotal t s).minTotalTime := by
  simp only [explainOnePlan, on, if_true, recordExpr, keepOPT3, recordSlot]
  split_ifs <;> rfl

lemma explainOnePlan_best (t : T)
    (on : cfg.enableME = true) (count : s.currentExprNum = E) (clean : Clean E s.currentExprJITLevels)
    (best : s.minTotalTime = 0 ∨ Clean E s.bestJITLevels) : Clean E (explainOnePlan cfg t s).bestJITLevels := by
  rw [explainOnePlan_bestJITLevels t s on, recordTotal]
  split_ifs with taken
  · exact clean.congr fun i hi => by simp [fill, count, hi]
  · exact not_recorded taken best

end Measure

section Decide

variable {T : Type} [Zero T]

/-- **A decision moves the search to the next place.** -/
theorem decideLevels_at {cfg : Settings} {E : Nat} {place : Place} {s : Search T}
    (quartet : cfg.enableQuartet = true) (some : 1 ≤ E) (off : s.useTheBest = false)
    (here : At E place s.position) (recorded : Recorded E place s) (best : Clean E s.bestJITLevels) :
    At E (place.next E) (decideLevels cfg s).position ∧ Pending E (place.next E) (decideLevels cfg s) := by
  rw [decideLevels_eq quartet some off here]
  obtain ⟨count, here⟩ := here
  simp only [Search.position] at count here
  cases place with
  | start =>
    obtain ⟨round, slot, no3, vector⟩ := here
    refine ⟨⟨count, le_refl 1, by omega, ?_, slot, no3, fun i hi => ?_⟩, off, .inl recorded⟩
    · simp [Place.decided, Search.raiseAll, Search.position, round]
    · simp [Place.decided, Search.raiseAll, Search.position, fill, count, hi, allAt, round]
  | uniform c =>
    obtain ⟨low, high, round, slot, no3, vector⟩ := here
    simp only [Place.decided, Place.next]
    split_ifs with early
    · refine ⟨⟨count, by omega, by omega, ?_, slot, no3, fun i hi => ?_⟩, off, .inl ?_⟩
      · simp [Search.raiseAll, Search.position, round]
      · simp [Search.raiseAll, Search.position, fill, count, hi, allAt, round]
      · rcases recorded with ⟨-, none⟩ | ⟨rfl, -⟩
        · exact none
        · omega
    · have third : c = 3 := by omega
      subst third
      refine ⟨⟨count, by omega, .inl rfl, round, slot, no3, fun i hi => ?_⟩, off, by omega, ?_⟩
      · simp only [Search.raiseSlot, Search.position, slot, Function.update_apply]
        rw [vector 0 (by omega), vector i hi]
        split_ifs <;> rfl
      · rcases recorded with ⟨small, -⟩ | ⟨-, low⟩
        · omega
        · exact .inr low
  | low j l =>
    obtain ⟨inside, level, round, slot, no3, vector⟩ := here
    simp only [Place.decided, Place.next]
    split_ifs with one more
    · obtain rfl : l = 1 := by omega
      refine ⟨⟨count, inside, .inr rfl, round, slot, no3, fun i hi => ?_⟩, off,
        fun i hi => recorded i (by omega), .inr (recorded j le_rfl)⟩
      simp only [Search.raiseSlot, Search.position, slot, Function.update_apply]
      rw [vector j inside, vector i hi]
      split_ifs <;> first | rfl | contradiction
    · refine ⟨⟨count, more, .inl rfl, round, ?_, no3, fun i hi => ?_⟩, rfl,
        fun i hi => recorded i (by omega), .inl rfl⟩
      · simp [Search.nextSlot, Search.position, slot]
      · simp only [Search.nextSlot, Search.position, slot, Function.update_apply]
        rw [vector (j + 1) more, vector i hi]
        split_ifs <;> rfl
    · refine ⟨⟨count, round, rfl, rfl, fun i hi => ?_⟩,
        fun i hi => (recorded i (by omega)).computed, .inl rfl⟩
      simp only [Search.endSweep, Search.position, fill, count, hi, if_true]
      exact recorded i (by omega)
  | lowBest =>
    obtain ⟨round, slot, with3, vector⟩ := here
    refine ⟨⟨count, by omega, round, slot, with3, fun i hi => ?_⟩, off, recorded.1, ?_⟩
    · simp [Place.decided, Search.startOPT3, Search.position, Function.update_apply, fill, count, hi,
        allAt]
    · rcases recorded.2 with none | flat
      · exact .inl none
      · exact .inr fun i hi other => flat i hi (by omega)
  | opt j =>
    obtain ⟨inside, round, slot, with3, vector⟩ := here
    obtain ⟨computed, flat⟩ := recorded
    simp only [Place.decided, Place.next]
    split_ifs with more
    · refine ⟨⟨count, more, round, ?_, with3, fun i hi => ?_⟩, rfl, computed, .inl rfl⟩
      · simp [Search.nextOPT3, Search.position, slot]
      · simp only [Search.nextOPT3, Search.position, slot, Function.update_apply]
        rw [vector i hi]
        split_ifs <;> rfl
    · refine ⟨⟨count, round, ?_, rfl, ?_⟩, trivial⟩
      · simp only [Search.endOPT3, Search.position]
        omega
      · have clean : Clean E s.bestCurrentJITLevels := by
          by_cases one : E = 1
          · subst one
            exact .of_one (computed 0 (by omega))
          · exact .of_flat fun i hi => flat i hi (by omega)
        exact clean.congr fun i hi => by simp [Search.endOPT3, Search.position, fill, count, hi]
  | optBest | settled =>
    obtain ⟨round, slot, no3, vector⟩ := here
    exact ⟨⟨count, round, slot, no3, best.congr fun i hi => by
      simp [Place.decided, Search.settle, Search.position, fill, count, hi]⟩, trivial⟩

end Decide

end Hex.Kernel.LevelSearch
