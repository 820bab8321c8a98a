/-
# Theory.Csv — Python's `csv.reader`

The reader of Python's csv module for a file opened in text mode, with the default dialect: fields
are separated by commas, a field may stand in quotes, and two quotes in such a field are one. `Reader`
is the state of the parser, `process` and `endLine` are what it does with a character and with the
end of a line, and `readFrom` is the loop over the lines of a file. `none` is an error.

`csvReader_row_iff` says when a line whose first field was put in quotes, without doubling the quotes
in it, is read as the row that it was made of.
-/
import Hex.Theory.CText
import Mathlib.Data.List.Infix

namespace Hex.Theory.Csv

open CText

/-- The states of the parser. -/
inductive Mode where
  | startRecord
  | startField
  | inField
  | inQuotedField
  | quoteInQuotedField
  | eatCrnl
  deriving DecidableEq, Repr

structure Reader where
  mode : Mode
  field : Text
  fields : List Text
  deriving DecidableEq, Repr

namespace Reader

/-- `field_size_limit`. -/
def fieldLimit : Nat := 131072

def start : Reader := ⟨.startRecord, [], []⟩

def addChar (r : Reader) (mode : Mode) (c : Char) : Option Reader :=
  if r.field.length < fieldLimit then some ⟨mode, r.field ++ [c], r.fields⟩ else none

def saveField (r : Reader) (mode : Mode) : Reader := ⟨mode, [], r.fields ++ [r.field]⟩

def endsLine (c : Char) : Bool := c = newline || c = '\r'

def processStart (r : Reader) (c : Char) : Option Reader :=
  if endsLine c then some (r.saveField .eatCrnl)
  else if c = '"' then some { r with mode := .inQuotedField }
  else if c = ',' then some (r.saveField .startField)
  else r.addChar .inField c

def process (r : Reader) (c : Char) : Option Reader :=
  match r.mode with
  | .startRecord => if endsLine c then some { r with mode := .eatCrnl } else r.processStart c
  | .startField => r.processStart c
  | .inField =>
    if endsLine c then some (r.saveField .eatCrnl)
    else if c = ',' then some (r.saveField .startField)
    else r.addChar .inField c
  | .inQuotedField =>
    if c = '"' then some { r with mode := .quoteInQuotedField } else r.addChar .inQuotedField c
  | .quoteInQuotedField =>
    if c = '"' then r.addChar .inQuotedField c
    else if c = ',' then some (r.saveField .startField)
    else if endsLine c then some (r.saveField .eatCrnl)
    else r.addChar .inField c
  | .eatCrnl => if endsLine c then some r else none

/-- `parse_process_char`, for the end of a line. -/
def endLine (r : Reader) : Reader :=
  match r.mode with
  | .startRecord => r
  | .startField => r.saveField .startRecord
  | .inField => r.saveField .startRecord
  | .inQuotedField => r
  | .quoteInQuotedField => r.saveField .startRecord
  | .eatCrnl => { r with mode := .startRecord }

def step (r : Reader) (c : Char) (atEnd : Bool) : Option Reader :=
  (r.process c).map fun r => if c = newline ∨ atEnd then r.endLine else r

/-- The rows of the rest of a file. A line ends behind a newline, and at the end of the file; the reader
is back at the start of a record only then. -/
def readFrom : Reader → Text → Option (List (List Text))
  | r, [] => if r.field ≠ [] ∨ r.mode = .inQuotedField then some [r.fields ++ [r.field]] else some []
  | r, c :: t =>
    match r.step c t.isEmpty with
    | none => none
    | some r => if r.mode = .startRecord then (readFrom start t).map (r.fields :: ·) else readFrom r t

end Reader

/-- What a file is that is opened without `newline=''`. -/
def universalNewlines : Text → Text
  | [] => []
  | '\r' :: '\n' :: t => newline :: universalNewlines t
  | '\r' :: t => newline :: universalNewlines t
  | c :: t => c :: universalNewlines t

def csvReader (file : Text) : Option (List (List Text)) := Reader.start.readFrom (universalNewlines file)

/-! ## Newlines -/

lemma universalNewlines_not_mem (t : Text) : '\r' ∉ universalNewlines t := by
  fun_induction universalNewlines t <;> simp_all [newline]
  grind

lemma universalNewlines_eq_self {t : Text} (plain : '\r' ∉ t) : universalNewlines t = t := by
  fun_induction universalNewlines t <;> simp_all

namespace Reader

variable {t f v : Text} {mode : Mode} {fs : List Text} {rows : List (List Text)}

/-! ## A row is read -/

lemma readFrom_inside {r r' : Reader} {c : Char} (processed : r.process c = some r') (inside : c ≠ newline)
    (same : r'.mode ≠ .startRecord) (more : t ≠ []) : readFrom r (c :: t) = readFrom r' t := by
  simp [readFrom, step, processed, inside, more, same]

lemma addChar_eq {mode' : Mode} (fits : f.length < fieldLimit) (c : Char) :
    addChar ⟨mode, f, fs⟩ mode' c = some ⟨mode', f ++ [c], fs⟩ := if_pos fits

lemma readFrom_quoted {q : Text} (t f : Text) (fs : List Text) (unquoted : '"' ∉ q) :
    readFrom ⟨.inQuotedField, f, fs⟩ (q ++ t) =
      if q = [] ∨ (f ++ q).length ≤ fieldLimit then readFrom ⟨.inQuotedField, f ++ q, fs⟩ t else none := by
  induction q generalizing f with
  | nil => simp
  | cons c q ih =>
    obtain ⟨other, unquoted⟩ := List.ne_and_not_mem_of_not_mem_cons unquoted
    by_cases room : f.length < fieldLimit
    · have processed : process ⟨.inQuotedField, f, fs⟩ c = some ⟨.inQuotedField, f ++ [c], fs⟩ := by
        simp [process, other.symm, addChar_eq room]
      have step : readFrom ⟨.inQuotedField, f, fs⟩ (c :: (q ++ t)) =
          readFrom ⟨.inQuotedField, f ++ [c], fs⟩ (q ++ t) := by
        simp [readFrom, Reader.step, processed, endLine]
      have bound : q = [] ∨ (f ++ [c] ++ q).length ≤ fieldLimit ↔
          c :: q = [] ∨ (f ++ [c] ++ q).length ≤ fieldLimit := by
        cases q <;> simp
        omega
      rw [List.cons_append, step, ih _ unquoted, List.append_cons f c q]
      exact if_congr bound rfl rfl
    · have full : process ⟨.inQuotedField, f, fs⟩ c = none := by simp [process, other.symm, addChar, room]
      have long : ¬ (c :: q = [] ∨ (f ++ c :: q).length ≤ fieldLimit) := by
        simp
        omega
      rw [if_neg long]
      simp [readFrom, Reader.step, full]

/-- A text that needs no quotes. -/
def Plain (v : Text) : Prop := ∀ c ∈ v, c ≠ ',' ∧ c ≠ '"' ∧ endsLine c = false

lemma readFrom_inField (plain : Plain v) (fits : (f ++ v).length ≤ fieldLimit) (more : t ≠ []) :
    readFrom ⟨.inField, f, fs⟩ (v ++ t) = readFrom ⟨.inField, f ++ v, fs⟩ t := by
  induction v generalizing f with
  | nil => simp
  | cons c v ih =>
    obtain ⟨⟨comma, _, inside⟩, plain⟩ := List.forall_mem_cons.mp plain
    rw [List.append_cons] at fits ⊢
    have room : f.length < fieldLimit := by simp at fits; omega
    have processed : process ⟨.inField, f, fs⟩ c = some ⟨.inField, f ++ [c], fs⟩ := by
      simp [process, inside, comma, addChar_eq room]
    rw [← ih plain fits, List.cons_append]
    exact readFrom_inside processed (by rintro rfl; cases inside) nofun (by simp [more])

lemma readFrom_plain (fs : List Text) (t : Text) (plain : Plain v) (fits : v.length ≤ fieldLimit) (more : t ≠ []) :
    ∃ mode, (mode = .startField ∨ mode = .inField) ∧
      readFrom ⟨.startField, [], fs⟩ (v ++ t) = readFrom ⟨mode, v, fs⟩ t := by
  cases v with
  | nil => exact ⟨.startField, .inl rfl, rfl⟩
  | cons c v =>
    obtain ⟨⟨comma, quote, inside⟩, plain⟩ := List.forall_mem_cons.mp plain
    have processed : process ⟨.startField, [], fs⟩ c = some ⟨.inField, [c], fs⟩ := by
      simp [process, processStart, inside, comma, quote, addChar, fieldLimit]
    refine ⟨.inField, .inr rfl, ?_⟩
    rw [List.cons_append, readFrom_inside processed (by rintro rfl; cases inside) nofun (by simp [more])]
    exact readFrom_inField plain fits more

lemma readFrom_fields {vs : List Text} (plain : ∀ w ∈ v :: vs, Plain w ∧ w.length ≤ fieldLimit) :
    readFrom ⟨.startField, [], fs⟩ (v ++ (vs.flatMap (',' :: ·) ++ [newline])) = some [fs ++ v :: vs] := by
  induction vs generalizing v fs with
  | nil =>
    obtain ⟨here, _⟩ := List.forall_mem_cons.mp plain
    obtain ⟨mode, kind, eq⟩ := readFrom_plain fs [newline] here.1 here.2 (by simp)
    rw [List.flatMap_nil, List.nil_append, eq]
    obtain rfl | rfl := kind <;> rfl
  | cons w vs ih =>
    obtain ⟨here, plain⟩ := List.forall_mem_cons.mp plain
    obtain ⟨mode, kind, eq⟩ := readFrom_plain fs ((w :: vs).flatMap (',' :: ·) ++ [newline]) here.1 here.2 (by simp)
    have processed : process ⟨mode, v, fs⟩ ',' = some ⟨.startField, [], fs ++ [v]⟩ := by
      obtain rfl | rfl := kind <;> rfl
    rw [eq, List.flatMap_cons, List.cons_append, List.cons_append,
      readFrom_inside processed (by decide) nofun (by simp), List.append_assoc, ih plain, ← List.append_cons]

/-! ## What the rows consist of -/

lemma process_cases {r r' : Reader} {c : Char} (processed : r.process c = some r') :
    (∃ mode, r' = ⟨mode, r.field, r.fields⟩) ∨ (∃ mode, r' = r.saveField mode) ∨ ∃ mode, r.addChar mode c = some r' := by
  obtain ⟨mode, f, fs⟩ := r
  unfold process processStart at processed
  cases mode <;> grind

def Fits (P : Char → Prop) (v : Text) : Prop := v.length ≤ fieldLimit ∧ ∀ c ∈ v, P c

def Within (P : Char → Prop) (r : Reader) : Prop := Fits P r.field ∧ ∀ v ∈ r.fields, Fits P v

section Within

variable {P : Char → Prop} {r r' : Reader} {c : Char}

lemma within_start : Within P start := ⟨⟨Nat.zero_le _, nofun⟩, nofun⟩

lemma Within.saveField (within : Within P r) (mode : Mode) : Within P (r.saveField mode) := by
  refine ⟨⟨Nat.zero_le _, nofun⟩, fun v member => ?_⟩
  obtain old | new := List.mem_append.mp member
  · exact within.2 v old
  · exact List.mem_singleton.mp new ▸ within.1

lemma Within.process (within : Within P r) (here : P c) (processed : r.process c = some r') : Within P r' := by
  obtain ⟨mode, rfl⟩ | ⟨mode, rfl⟩ | ⟨mode, added⟩ := process_cases processed
  · exact within
  · exact within.saveField mode
  · unfold addChar at added
    split at added
    · cases added
      refine ⟨⟨by simpa using ‹_›, fun d member => ?_⟩, within.2⟩
      obtain old | new := List.mem_append.mp member
      · exact within.1.2 d old
      · exact List.mem_singleton.mp new ▸ here
    · cases added

lemma Within.endLine (within : Within P r) : Within P r.endLine := by
  unfold Reader.endLine
  split
  · exact within
  · exact within.saveField _
  · exact within.saveField _
  · exact within
  · exact within.saveField _
  · exact within

lemma Within.step {atEnd : Bool} (within : Within P r) (here : P c) (stepped : r.step c atEnd = some r') :
    Within P r' := by
  obtain ⟨mid, processed, rfl⟩ := Option.map_eq_some_iff.mp stepped
  split
  · exact (within.process here processed).endLine
  · exact within.process here processed

/-- Fields are within the limit, and consist of characters of the file. -/
lemma readFrom_within {t : Text} {rows : List (List Text)} (within : Within P r) (chars : ∀ c ∈ t, P c)
    (read : readFrom r t = some rows) : ∀ row ∈ rows, ∀ v ∈ row, Fits P v := by
  induction t generalizing r rows with
  | nil =>
    rw [readFrom] at read
    split at read <;> cases read
    · rintro row (_ | ⟨_, ⟨⟩⟩)
      rw [List.forall_mem_append, List.forall_mem_singleton]
      exact within.symm
    · nofun
  | cons c t ih =>
    obtain ⟨here, chars⟩ := List.forall_mem_cons.mp chars
    rw [readFrom] at read
    split at read
    · cases read
    rename_i r' stepped
    split at read
    · obtain ⟨later, read', rfl⟩ := Option.map_eq_some_iff.mp read
      exact List.forall_mem_cons.mpr ⟨(within.step here stepped).2, ih within_start chars read'⟩
    · exact ih (within.step here stepped) chars read

end Within

/-! ## The first field -/

lemma endLine_fields (r : Reader) :
    r.fields <+: r.endLine.fields ∧ (r.endLine.mode = .startRecord ∨ r.endLine.mode = .inQuotedField) := by
  obtain ⟨mode, f, fs⟩ := r
  cases mode <;> simp [endLine, saveField]

lemma process_fields {r r' : Reader} {c : Char} (processed : r.process c = some r') : r.fields <+: r'.fields := by
  obtain ⟨mode, rfl⟩ | ⟨mode, rfl⟩ | ⟨mode, added⟩ := process_cases processed
  · exact List.prefix_rfl
  · exact List.prefix_append _ _
  · unfold addChar at added
    split_ifs at added
    cases added
    exact List.prefix_rfl

lemma readFrom_saved {r mid : Reader} {c : Char}
    (processed : r.process c = some mid) (read : readFrom r (c :: t) = some rows) :
    ∃ row later, rows = row :: later ∧ mid.fields <+: row := by
  induction t generalizing r mid c with
  | nil =>
    have ended := endLine_fields mid
    simp only [readFrom, step, processed, Option.map_some, List.isEmpty_nil, or_true, if_true] at read
    split at read
    · cases read
      exact ⟨_, [], rfl, ended.1⟩
    · rw [if_pos (.inr (ended.2.resolve_left ‹_›))] at read
      cases read
      exact ⟨_, [], rfl, ended.1.trans (List.prefix_append _ _)⟩
  | cons d t ih =>
    obtain ⟨r', kept, read⟩ : ∃ r', mid.fields <+: r'.fields ∧ (if r'.mode = .startRecord then
        (readFrom start (d :: t)).map (r'.fields :: ·) else readFrom r' (d :: t)) = some rows := by
      rw [readFrom, step, processed] at read
      refine ⟨_, ?_, read⟩
      split
      · exact (endLine_fields mid).1
      · exact List.prefix_rfl
    split at read
    · obtain ⟨later, _, rfl⟩ := Option.map_eq_some_iff.mp read
      exact ⟨_, later, rfl, kept⟩
    · cases next : r'.process d with
      | none => simp [readFrom, step, next] at read
      | some mid' =>
        obtain ⟨row, later, rfl, start⟩ := ih next read
        exact ⟨row, later, rfl, kept.trans ((process_fields next).trans start)⟩

/-- What a text adds to the first field, and whether it ends it. -/
def firstField : Mode → Text → Text × Bool
  | .inQuotedField, c :: t =>
    if c = '"' then firstField .quoteInQuotedField t else (firstField .inQuotedField t).map (c :: ·) id
  | .quoteInQuotedField, c :: t =>
    if c = '"' then (firstField .inQuotedField t).map (c :: ·) id
    else if c = ',' ∨ endsLine c then ([], true)
    else (firstField .inField t).map (c :: ·) id
  | .inField, c :: t => if c = ',' ∨ endsLine c then ([], true) else (firstField .inField t).map (c :: ·) id
  | _, _ => ([], false)

def Mode.InFirst (mode : Mode) : Prop := mode = .inQuotedField ∨ mode = .quoteInQuotedField ∨ mode = .inField

lemma process_first {c : Char} {r : Reader} (first : Mode.InFirst mode)
    (processed : process ⟨mode, f, []⟩ c = some r) :
    (∃ mode' x, r = ⟨mode', f ++ x, []⟩ ∧ Mode.InFirst mode' ∧ (c = newline → mode' = .inQuotedField) ∧
        firstField mode (c :: t) = (firstField mode' t).map (x ++ ·) id) ∨
      (∃ mode', r = saveField ⟨mode, f, []⟩ mode') ∧ firstField mode (c :: t) = ([], true) := by
  have added {mode' : Mode} (eq : addChar ⟨mode, f, []⟩ mode' c = some r) : r = ⟨mode', f ++ [c], []⟩ := by
    unfold addChar at eq
    split_ifs at eq
    exact (Option.some.inj eq).symm
  have ended (eq : c = newline) : endsLine c = true := by simp [endsLine, eq]
  obtain rfl | rfl | rfl := first <;> simp only [process] at processed <;> split_ifs at processed
  · exact .inl ⟨.quoteInQuotedField, [], by simp_all, .inr (.inl rfl), by simp_all [newline], by
      simp_all [firstField, Prod.map]⟩
  · exact .inl ⟨.inQuotedField, [c], added processed, .inl rfl, fun _ => rfl, by simp_all [firstField]⟩
  · exact .inl ⟨.inQuotedField, [c], added processed, .inl rfl, fun _ => rfl, by simp_all [firstField]⟩
  · exact .inr ⟨⟨_, (Option.some.inj processed).symm⟩, by simp_all [firstField]⟩
  · exact .inr ⟨⟨_, (Option.some.inj processed).symm⟩, by simp_all [firstField]⟩
  · exact .inl ⟨.inField, [c], added processed, .inr (.inr rfl), fun eq => absurd (ended eq) (by assumption), by
      simp_all [firstField]⟩
  · exact .inr ⟨⟨_, (Option.some.inj processed).symm⟩, by simp_all [firstField]⟩
  · exact .inr ⟨⟨_, (Option.some.inj processed).symm⟩, by simp_all [firstField]⟩
  · exact .inl ⟨.inField, [c], added processed, .inr (.inr rfl), fun eq => absurd (ended eq) (by assumption), by
      simp_all [firstField]⟩

lemma readFrom_first (first : Mode.InFirst mode)
    (more : t ≠ [] ∨ mode = .inQuotedField) (read : readFrom ⟨mode, f, []⟩ t = some rows) :
    ∃ others later, rows = ((f ++ (firstField mode t).1) :: others) :: later ∧
      ((firstField mode t).2 = false → others = []) := by
  induction t generalizing mode f rows with
  | nil =>
    obtain rfl := more.resolve_left fun some => some rfl
    rw [readFrom, if_pos (.inr rfl)] at read
    cases read
    exact ⟨[], [], by simp [firstField], fun _ => rfl⟩
  | cons c t ih =>
    cases processed : process ⟨mode, f, []⟩ c with
    | none => simp [readFrom, step, processed] at read
    | some mid =>
      obtain ⟨mode', x, rfl, first', quoted, eq⟩ | ⟨⟨mode', rfl⟩, eq⟩ := process_first (t := t) first processed
      · have goesOn (more : t ≠ [] ∨ mode' = .inQuotedField) (read : readFrom ⟨mode', f ++ x, []⟩ t = some rows) :
            ∃ others later, rows = ((f ++ (firstField mode (c :: t)).1) :: others) :: later ∧
              ((firstField mode (c :: t)).2 = false → others = []) := by
          obtain ⟨others, later, rfl, last⟩ := ih first' more read
          exact ⟨others, later, by simp [eq], by simpa [eq] using last⟩
        simp only [readFrom, step, processed, Option.map_some] at read
        obtain rfl | other := first'
        · exact goesOn (.inr rfl) (by simpa [endLine] using read)
        have inside : c ≠ newline := fun nl => by
          obtain rfl | rfl := other <;> cases quoted nl
        cases t with
        | nil =>
          have ended : endLine ⟨mode', f ++ x, []⟩ = ⟨.startRecord, [], [f ++ x]⟩ := by
            obtain rfl | rfl := other <;> rfl
          simp [ended, readFrom, start] at read
          exact ⟨[], [], by simp [eq, firstField, ← read], fun _ => rfl⟩
        | cons d t =>
          refine goesOn (.inl nofun) ?_
          obtain rfl | rfl := other <;> simpa [inside] using read
      · obtain ⟨row, later, rfl, others, rfl⟩ := readFrom_saved processed read
        exact ⟨others, later, by simp [eq, saveField], by simp [eq]⟩

lemma firstField_unquoted {u : Text} (t : Text) (unquoted : '"' ∉ u) :
    firstField .inQuotedField (u ++ t) = (firstField .inQuotedField t).map (u ++ ·) id := by
  induction u with
  | nil => rfl
  | cons c u ih =>
    obtain ⟨other, unquoted⟩ := List.ne_and_not_mem_of_not_mem_cons unquoted
    rw [List.cons_append, firstField, if_neg other.symm, ih unquoted]
    rfl

lemma firstField_unclosed (unquoted : '"' ∉ t) : (firstField .inQuotedField t).2 = false := by
  rw [← List.append_nil t, firstField_unquoted [] unquoted]
  rfl

/-- How much longer a field can get than the text that is left of it: the last quote may become a part of it. -/
def Mode.slack : Mode → Nat
  | .inQuotedField => 0
  | _ => 1

/-- Whatever is in the quotes, it does not get longer if the field is ended. -/
lemma firstField_bound {s : Text} (first : Mode.InFirst mode) (unquoted : '"' ∉ t)
    (closed : (firstField mode (s ++ '"' :: ',' :: t)).2 = true) :
    (firstField mode (s ++ '"' :: ',' :: t)).1.length ≤ s.length + Mode.slack mode := by
  induction s generalizing mode with
  | nil =>
    obtain rfl | rfl | rfl := first
    · simp [firstField]
    · have unclosed : (firstField .inQuotedField (',' :: t)).2 = false := firstField_unclosed (by simpa using unquoted)
      rw [List.nil_append, firstField, if_pos rfl] at closed
      cases closed.symm.trans unclosed
    · simp [firstField, endsLine, newline, Mode.slack]
  | cons c s ih =>
    obtain rfl | rfl | rfl := first <;> rw [List.cons_append, firstField] at closed ⊢ <;> split_ifs at closed ⊢
    · exact (ih (.inr (.inl rfl)) closed).trans (by simp [Mode.slack])
    · simpa [Mode.slack] using ih (.inl rfl) closed
    · have bound := ih (.inl rfl) closed
      simp [Mode.slack] at bound ⊢
      omega
    · simp
    · simpa [Mode.slack] using ih (.inr (.inr rfl)) closed
    · simp
    · simpa [Mode.slack] using ih (.inr (.inr rfl)) closed

lemma readFrom_quote_ne {q : Text} {vs : List Text} (quoted : '"' ∈ q) (unquoted : '"' ∉ t) :
    readFrom ⟨.inQuotedField, [], []⟩ (q ++ '"' :: ',' :: t) ≠ some [q :: v :: vs] := by
  intro read
  obtain ⟨others, later, eq, last⟩ := readFrom_first (.inl rfl) (.inr rfl) read
  simp only [List.nil_append, List.cons.injEq] at eq
  obtain ⟨⟨same, rfl⟩, _⟩ := eq
  have closed : (firstField .inQuotedField (q ++ '"' :: ',' :: t)).2 = true :=
    Bool.not_eq_false _ ▸ fun unclosed => List.cons_ne_nil v vs (last unclosed)
  obtain ⟨u, rest, rfl, first⟩ := List.eq_append_cons_of_mem quoted
  rw [List.append_assoc, firstField_unquoted _ first, List.cons_append, firstField, if_pos rfl] at same closed
  replace same : '"' :: rest = (firstField .quoteInQuotedField (rest ++ '"' :: ',' :: t)).1 := List.append_cancel_left same
  cases rest with
  | nil =>
    -- the quote that is to close the field is the second one of a pair
    have unclosed : (firstField .inQuotedField (',' :: t)).2 = false := firstField_unclosed (by simpa using unquoted)
    cases closed.symm.trans unclosed
  | cons x rest =>
    rw [List.cons_append, firstField] at same closed
    split_ifs at same closed with pair
    · have bound := firstField_bound (.inl rfl) unquoted closed
      have longer := congrArg List.length same
      simp [Mode.slack] at bound longer
      omega
    · exact pair (List.cons.inj same).1.symm

end Reader

open Reader in
/-- **When a row is read as it was written**, its first field in quotes and the others without: if the
first field has no quote, and no field has a carriage return or is longer than the limit. -/
theorem csvReader_row_iff {q v : Text} {vs : List Text}
    (plain : ∀ w ∈ v :: vs, ∀ c ∈ w, c ≠ ',' ∧ c ≠ '"' ∧ c ≠ newline) :
    csvReader ('"' :: (q ++ '"' :: ((v :: vs).flatMap (',' :: ·) ++ [newline]))) = some [q :: v :: vs] ↔
      '"' ∉ q ∧ ∀ w ∈ q :: v :: vs, '\r' ∉ w ∧ w.length ≤ fieldLimit := by
  obtain ⟨t, body⟩ : ∃ t, t = v ++ (vs.flatMap (',' :: ·) ++ [newline]) := ⟨_, rfl⟩
  have file : '"' :: (q ++ '"' :: ((v :: vs).flatMap (',' :: ·) ++ [newline])) = '"' :: (q ++ '"' :: ',' :: t) := by
    simp [body]
  have more : t ≠ [] := by simp [body]
  have chars {c : Char} (member : c ∈ t) : c = ',' ∨ c = newline ∨ ∃ w ∈ v :: vs, c ∈ w := by
    simp only [body, List.mem_append, List.mem_flatMap, List.mem_cons, List.not_mem_nil, or_false] at member ⊢
    grind
  have unquoted : '"' ∉ t := fun member => by
    obtain comma | ended | ⟨w, field, inside⟩ := chars member
    · cases comma
    · exact absurd ended (by decide)
    · exact (plain w field _ inside).2.1 rfl
  have text (bare : ∀ w ∈ q :: v :: vs, '\r' ∉ w) : '\r' ∉ q ++ '"' :: ',' :: t := fun member => by
    obtain inside | member := List.mem_append.mp member
    · exact bare q (by simp) inside
    · obtain comma | ended | ⟨w, field, inside⟩ := chars (by simpa using member)
      · cases comma
      · exact absurd ended (by decide)
      · exact bare w (by simp_all) inside
  have started (bare : ∀ w ∈ q :: v :: vs, '\r' ∉ w) : csvReader ('"' :: (q ++ '"' :: ',' :: t)) =
      readFrom ⟨.inQuotedField, [], []⟩ (q ++ '"' :: ',' :: t) := by
    have opened : process start '"' = some ⟨.inQuotedField, [], []⟩ := rfl
    rw [csvReader, universalNewlines_eq_self (by simpa using text bare), readFrom_inside opened (by decide) (by decide) (by simp)]
  rw [file]
  constructor
  · intro read
    have fits := readFrom_within (P := (· ≠ '\r')) within_start
      (fun c member eq => universalNewlines_not_mem _ (eq ▸ member)) read _ List.mem_cons_self
    have bare : ∀ w ∈ q :: v :: vs, '\r' ∉ w := fun w member inside => (fits w member).2 _ inside rfl
    refine ⟨fun quoted => ?_, fun w member => ⟨bare w member, (fits w member).1⟩⟩
    exact readFrom_quote_ne quoted unquoted (started bare ▸ read)
  · rintro ⟨quoteless, fine⟩
    have closed : process ⟨.inQuotedField, q, []⟩ '"' = some ⟨.quoteInQuotedField, q, []⟩ := rfl
    have saved : process ⟨.quoteInQuotedField, q, []⟩ ',' = some ⟨.startField, [], [q]⟩ := rfl
    rw [started fun w member => (fine w member).1, readFrom_quoted _ _ _ quoteless,
      if_pos (.inr (fine q List.mem_cons_self).2), List.nil_append, readFrom_inside closed (by decide) (by simp) (by simp),
      readFrom_inside saved (by decide) (by simp) more, body, readFrom_fields]
    · rfl
    · intro w member
      refine ⟨fun c inside => ?_, (fine w (List.mem_cons_of_mem _ member)).2⟩
      obtain ⟨comma, quote, ended⟩ := plain w member c inside
      refine ⟨comma, quote, ?_⟩
      have bare : c ≠ '\r' := fun eq => (fine w (List.mem_cons_of_mem _ member)).1 (eq ▸ inside)
      simp [endsLine, ended, bare]

end Hex.Theory.Csv
