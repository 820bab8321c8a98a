/-
# Compiler.Effect — code that changes more than memory

`Computes` is for code that writes cells and makes calls. The steps of a projection also
assign columns of the result slot, and the steps of aggregates replace transition values.
`Acts` is the same judgement for such code: what happens to the result slot and to the
groups is left to the postcondition.
-/
import Hex.Compiler.Correct

namespace Hex.Compiler

open Theory.BlockCode

/-- Only the cells `W` are written; the result slot and the groups may have changed. -/
structure MemoryFrame (W : Cell → Prop) (m m' : Machine) : Prop where
  mem : ∀ c, ¬ W c → m'.mem c = m.mem c
  slots : m'.slots = m.slots

namespace MemoryFrame

variable {W W' : Cell → Prop} {m m1 m' : Machine}

lemma refl (m : Machine) : MemoryFrame W m m := ⟨fun _ _ => rfl, rfl⟩

lemma of_frame (frame : Frame W m m') : MemoryFrame W m m' := ⟨frame.mem, frame.slots⟩

lemma trans (first : MemoryFrame W m m1) (second : MemoryFrame W m1 m') : MemoryFrame W m m' :=
  ⟨fun c out => (second.mem c out).trans (first.mem c out), second.slots.trans first.slots⟩

lemma mono (frame : MemoryFrame W m m') (sub : ∀ c, W c → W' c) : MemoryFrame W' m m' :=
  ⟨fun c out => frame.mem c fun inside => out (sub c inside), frame.slots⟩

end MemoryFrame

/-- Code that writes only the cells `W`, may change the result slot and the groups, and follows
the evaluation. -/
abbrev Acts {α : Type} (W : Cell → Prop) : Machine → Answer α → (α → Machine → Result Machine Raised → Prop) →
    (α → Machine → Prop) → Result Machine Raised → Prop :=
  LeadsTo (MemoryFrame W)

namespace Acts

variable {α β : Type} {W W' : Cell → Prop} {m : Machine} {answer : Answer α}
  {how : α → Machine → Result Machine Raised → Prop} {post : α → Machine → Prop}
  {r : Result Machine Raised}

lemma of_computes (computes : Computes W m answer how post r) :
    Acts W m answer how (fun a m' => post a m' ∧ m'.resultslot = m.resultslot ∧ m'.pergroups = m.pergroups) r := by
  have framed := LeadsTo.imp computes (fun _ _ => id)
    fun a m' frame held => (⟨held, frame.resultslot, frame.pergroups⟩ : _ ∧ _ ∧ _)
  exact framed.mono fun _ frame => .of_frame frame

lemma last {a : α} {m' : Machine} (ends : how a m' r) (traced : m'.trace = m.trace) (frame : MemoryFrame W m m')
    (holds : post a m') : Acts W m ((Pure.pure a : Eval α) m.trace) how post r :=
  ⟨m', ends, traced, frame, holds⟩

variable {exec : Op → Machine → Flow Machine Raised}

lemma seq {a b : Code Op} {x : Eval α} {f : α → Eval β} {how : β → Machine → Result Machine Raised → Prop}
    {mid : α → Machine → Prop} {post : β → Machine → Prop}
    (first : Acts W' m (x m.trace) Through mid (eval exec a m)) (sub : ∀ c, W' c → W c)
    (second : ∀ y m1, MemoryFrame W' m m1 → mid y m1 → Acts W m1 (f y m1.trace) how post (eval exec b m1)) :
    Acts W m ((x >>= f) m.trace) how post (eval exec (.seq a b) m) :=
  LeadsTo.seq first (fun _ _ frame => (frame.mono sub).trans) second

lemma before {a b : Code Op} {m1 : Machine} (ran : eval exec a m = .next m1) (frame : MemoryFrame W m m1)
    (later : Acts W m1 answer how post (eval exec b m1)) : Acts W m answer how post (eval exec (.seq a b) m) :=
  LeadsTo.before ran (fun _ => frame.trans) later

lemma call {w : World} {op : Op} {d h : Nat} {m0 : Machine} {c : Call} {f : List NullableDatum → Eval α}
    {k : List NullableDatum → Machine → Flow Machine Raised} {labels : List Nat} {inside : ∀ i ∈ labels, i < d}
    (ran : exec op m0 = m.call w c k)
    (later : ∀ ds, exec op m0 = k ds { m with trace := m.trace ++ [c] } →
      Acts W { m with trace := m.trace ++ [c] } (f ds (m.trace ++ [c])) how post
        (eval exec ((Gen.jump op labels inside).piece h).code m0)) :
    Acts W m ((Eval.call w c >>= f) m.trace) how post (eval exec ((Gen.jump op labels inside).piece h).code m0) :=
  LeadsTo.call ran (fun _ frame => ⟨frame.mem, frame.slots⟩) later

end Acts

end Hex.Compiler
