/-
# Compiler.Agree — what the interpreter and the compiled code have in common

Between two steps the interpreter and the compiled code need not have the same memory:
the emitted steps of AND and OR store NULL into the result before the last argument is
reached, and the emitted step of a row comparison leaves the old is-null flag in it.
`Agree D` says what they have in common: outside of the cells `D` the memory holds the
same SQL values, and slots, transition values and calls are the same.

The module has the lemmas about stores and calls that keep it, and says which steps are
admissible: those where datums are of the types that both executors rely on.
-/
import Hex.Compiler.Emit
import Hex.Compiler.Frame
import Hex.Theory.BlockSim
import Mathlib.Data.Set.Insert

namespace Hex.Compiler

open Theory.BlockCode

/-! ## Agreement -/

structure Agree (D : Set Cell) (m m' : Machine) : Prop where
  mem : ∀ c, c ∉ D → (m.mem c).sql = (m'.mem c).sql
  slots : m.slots = m'.slots
  resultslot : ∀ i, (m.resultslot i).sql = (m'.resultslot i).sql
  pergroups : m.pergroups = m'.pergroups
  trace : m.trace = m'.trace

namespace Agree

variable {D D' : Set Cell} {m m' : Machine} {c : Cell} {d d' : NullableDatum}

lemma refl (m : Machine) : Agree D m m := ⟨fun _ _ => rfl, rfl, fun _ => rfl, rfl, rfl⟩

variable (agree : Agree D m m')

include agree

lemma mono (sub : D ⊆ D') : Agree D' m m' :=
  { agree with mem := fun c out => agree.mem c fun inside => out (sub inside) }

lemma isnull (clean : c ∉ D) : (m.mem c).isnull = (m'.mem c).isnull := by
  rw [NullableDatum.isnull_eq, NullableDatum.isnull_eq, agree.mem c clean]

lemma value (clean : c ∉ D) (notNull : (m'.mem c).isnull = false) : (m.mem c).value = (m'.mem c).value := by
  have same := agree.mem c clean
  rw [sql_of_not_isnull notNull] at same
  exact (NullableDatum.sql_eq_some.mp same).2

lemma args {cells : List Cell} (clean : ∀ c ∈ cells, c ∉ D) : m.args cells = m'.args cells :=
  List.map_congr_left fun c member => agree.mem c (clean c member)

lemma anyArgNull {cells : List Cell} (clean : ∀ c ∈ cells, c ∉ D) :
    anyArgNull m cells = Compiler.anyArgNull m' cells := by
  rw [anyArgNull_eq, anyArgNull_eq, agree.args clean]

lemma set (same : d.sql = d'.sql) : Agree (D \ {c}) (m.set c d) (m'.set c d') := by
  refine { agree with mem := fun x out => ?_ }
  by_cases eq : x = c
  · subst eq
    rw [Machine.mem_set_self, Machine.mem_set_self, same]
  · rw [Machine.mem_set_ne m d eq, Machine.mem_set_ne m' d' eq]
    exact agree.mem x fun inside => out ⟨inside, eq⟩

/-- The cell holds the same SQL value afterwards; no other agreement is lost. -/
lemma update (same : d.sql = d'.sql) : Agree D (m.set c d) (m'.set c d') :=
  (agree.set same).mono fun _ inside => inside.1

/-- Both change the value of a cell; the value of NULL does not matter. -/
lemma setValue (clean : c ∉ D) {v v' : Datum}
    (same : (m'.mem c).isnull = false → v = v') : Agree D (m.setValue c v) (m'.setValue c v') := by
  apply agree.update
  show NullableDatum.sql { value := v, isnull := (m.mem c).isnull } =
    NullableDatum.sql { value := v', isnull := (m'.mem c).isnull }
  rw [agree.isnull clean]
  cases null : (m'.mem c).isnull with
  | true => rfl
  | false => rw [same null]

lemma setNull (c : Cell) : Agree (D \ {c}) (m.setNull c true) (m'.setNull c true) := by
  apply agree.set
  rfl

lemma setRight (same : (m.mem c).sql = d.sql) : Agree D m (m'.set c d) := by
  refine { agree with mem := fun x out => ?_ }
  by_cases eq : x = c
  · subst eq
    rw [Machine.mem_set_self, same]
  · rw [Machine.mem_set_ne m' d eq]
    exact agree.mem x out

/-- The emitted code stores something else. -/
lemma spoilRight (d : NullableDatum) : Agree (insert c D) m (m'.set c d) := by
  refine { agree with mem := fun x out => ?_ }
  have ne : x ≠ c := fun eq => out (Or.inl eq)
  rw [Machine.mem_set_ne m' d ne]
  exact agree.mem x fun inside => out (Or.inr inside)

lemma spoil (d d' : NullableDatum) : Agree (insert c D) (m.set c d) (m'.set c d') := by
  refine { agree with mem := fun x out => ?_ }
  have ne : x ≠ c := fun eq => out (Or.inl eq)
  rw [Machine.mem_set_ne m d ne, Machine.mem_set_ne m' d' ne]
  exact agree.mem x fun inside => out (Or.inr inside)

lemma weaken (c : Cell) : Agree (insert c D) m m' :=
  agree.mono fun _ inside => Or.inr inside

lemma setAll (cells : List Cell) (ds : List NullableDatum) :
    Agree {c | c ∈ D ∧ c ∉ cells} (m.setAll cells ds) (m'.setAll cells ds) := by
  induction cells generalizing D m m' ds with
  | nil => exact agree.mono fun c inside => ⟨inside, by simp⟩
  | cons c cells ih =>
    apply (ih (agree.set rfl) ds.tail).mono
    rintro x ⟨⟨inside, ne⟩, out⟩
    exact ⟨inside, by simpa [out] using ne⟩

/-- The first argument of a call is stored; the others agree already. -/
lemma setFirst (cells : List Cell) (same : d.sql = d'.sql) (clean : ∀ c ∈ cells.tail, c ∉ D) :
    Agree D (m.setFirst cells d) (m'.setFirst cells d') ∧
      (m.setFirst cells d).args cells = (m'.setFirst cells d').args cells := by
  cases cells with
  | nil => exact ⟨agree, rfl⟩
  | cons c rest =>
    have stored : Agree (D \ {c}) (m.set c d) (m'.set c d') := agree.set same
    refine ⟨stored.mono fun _ inside => inside.1, stored.args fun x member inside => ?_⟩
    rcases List.mem_cons.mp member with rfl | later
    · exact inside.2 rfl
    · exact clean x later inside.1

lemma setResult (i : Nat) (same : d.sql = d'.sql) : Agree D (m.setResult i d) (m'.setResult i d') := by
  refine { agree with resultslot := fun j => ?_ }
  by_cases eq : j = i
  · subst eq
    simpa [Machine.setResult] using same
  · simpa [Machine.setResult, eq] using agree.resultslot j

lemma setSlot (slot : SlotName) {s s' : Slot} (same : s = s') : Agree D (m.setSlot slot s) (m'.setSlot slot s') := by
  refine { agree with slots := ?_ }
  simp only [Machine.setSlot, agree.slots, same]

lemma setGroup (setoff transno : Nat) (g : PerGroup) :
    Agree D (m.setGroup setoff transno g) (m'.setGroup setoff transno g) := by
  refine { agree with pergroups := ?_ }
  simp only [Machine.setGroup, agree.pergroups]

lemma traced (c : Call) : Agree D { m with trace := m.trace ++ [c] } { m' with trace := m'.trace ++ [c] } :=
  { agree with trace := congrArg (· ++ [c]) agree.trace }

end Agree

lemma related_call {w : World} {m m' : Machine} {labels : List Nat} {Q : Post Machine Machine} {c : Call}
    {k k' : List NullableDatum → Machine → Flow Machine Raised} (trace : m.trace = m'.trace)
    (later : ∀ ds, w.answer m.trace c = .ok ds → (k ds { m with trace := m.trace ++ [c] }).Related labels Q
      (k' ds { m' with trace := m'.trace ++ [c] })) :
    (m.call w c k).Related labels Q (m'.call w c k') := by
  have same : w.answer m'.trace c = w.answer m.trace c := by rw [trace]
  simp only [Machine.call, same]
  cases answered : w.answer m.trace c with
  | error message => rw [trace]; rfl
  | ok ds => exact later ds answered

/-! ## Stores of the emitted code -/

section Stores

variable (m : Machine) (c : Cell)

lemma set_set (d d' : NullableDatum) : (m.set c d).set c d' = m.set c d' := by
  simp [Machine.set]

lemma args_set {cells : List Cell} (apart : c ∉ cells) (d : NullableDatum) :
    (m.set c d).args cells = m.args cells := by
  apply List.map_congr_left
  intro x member
  have ne : x ≠ c := fun eq => apart (eq ▸ member)
  rw [Machine.mem_set_ne m d ne]

@[simp] lemma storeResult_eq (d : NullableDatum) : storeResult c d m = m.set c d := by
  simp only [storeResult, Machine.setValue, Machine.setNull, set_set, Machine.mem_set_self]

@[simp] lemma setNull_setValue (b : Bool) (v : Datum) :
    (m.setNull c b).setValue c v = m.set c { value := v, isnull := b } := by
  simp only [Machine.setValue, Machine.setNull, set_set, Machine.mem_set_self]

@[simp] lemma setValue_setNull (b : Bool) (v : Datum) :
    (m.setValue c v).setNull c b = m.set c { value := v, isnull := b } := by
  simp only [Machine.setValue, Machine.setNull, set_set, Machine.mem_set_self]

lemma set_setValue (d : NullableDatum) (v : Datum) :
    (m.set c d).setValue c v = m.set c { value := v, isnull := d.isnull } := by
  simp only [Machine.setValue, set_set, Machine.mem_set_self]

@[simp] lemma emitCheckArgNulls_eq : ∀ cells, emitCheckArgNulls m cells = anyArgNull m cells
  | [] => rfl
  | c :: rest => by
    simp only [emitCheckArgNulls, anyArgNull, List.any_cons]
    rw [emitCheckArgNulls_eq rest]
    cases (m.mem c).isnull <;> rfl

lemma buildV1Call_eq {w : World} {llvm : Llvm} (keeps : llvm.Keeps) (f : FuncCall)
    (k : NullableDatum → Machine → Flow Machine Raised) : buildV1Call w llvm f m k = functionCallInvoke w f m k := by
  simp only [buildV1Call, Machine.lifetimeEnd, keeps _ _]

end Stores

/-! ## Admissible steps -/

def isBoolean (d : NullableDatum) : Bool := d.isnull || d.value == 0 || d.value == 1

/-- NULL, or the datum of an int4: `Int32GetDatum` extends the sign. -/
def isInt4 (d : NullableDatum) : Bool := d.isnull || d.value == (d.value.setWidth 32).signExtend 64

def returns (w : World) (f : FuncCall) (m : Machine) (type : NullableDatum → Bool) : Bool :=
  match w.answer m.trace (.function f.func (m.args f.args)) with
  | .ok ds => type (returned ds)
  | .error _ => true

/-- Boolean datums are 0 or 1 where AND, OR and NULLIF look at them, and the comparison
functions of row comparisons return int4 datums. -/
def Op.typed (w : World) (op : Op) (m : Machine) : Bool :=
  match op with
  | .boolStep _ _ res _ => isBoolean (m.mem res)
  | .nullif _ f => anyArgNull m f.args || returns w f m isBoolean
  | .rowCompareStep _ f => (f.func.fnStrict && anyArgNull m f.args) || returns w f m isInt4
  | _ => true

end Hex.Compiler
