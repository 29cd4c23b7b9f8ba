import Mathlib.Data.Int.Notation
import Mathlib.Data.List.Basic
import Mathlib.Tactic.Common

set_option relaxedAutoImplicit false
set_option autoImplicit false

/-!
# Decimal numbers and comma-separated text

The text side of a table of numbers: a writer that prints integers in decimal and joins them
with commas, and the readers of the Python standard library, that is `int`, `csv.reader` with
the default dialect and the row dictionaries of `csv.DictReader`.

## Main definitions

* `CsvText.showInt` — decimal printing of an integer.
* `CsvText.pyInt` — Python's `int` on a string of ASCII characters.
* `CsvText.line` — the fields of one row, joined by commas and ended by a newline.
* `CsvText.readCsv` — the state machine of `csv.reader` in the default dialect.
* `CsvText.dictGet` — the item of a key in the dictionary that `DictReader` makes of a row.

## Main results

* `CsvText.pyInt_showInt` — reading a printed integer gives it back.
* `CsvText.readCsv_line` — reading a written row gives its fields back and leaves the rest of
  the text to be read.
* `CsvText.prefix_rows`, `CsvText.readCsv_cut`, `CsvText.pyInt_prefix` — a text that ends in the
  middle of a row.
-/

namespace CsvText

/-! ## Decimal integers -/

/-- Decimal printing of an integer: a minus sign for negative values, no leading zeros. -/
def showInt : ℤ → List Char
  | .ofNat n => Nat.toDigits 10 n
  | .negSucc n => '-' :: Nat.toDigits 10 (n + 1)

/-- The digits of a Python integer literal after its first digit, read behind the value
`acc`; a single underscore may stand between two digits. -/
def pyDigits (acc : ℕ) : List Char → Option ℕ
  | [] => some acc
  | '_' :: c :: cs =>
    if c.isDigit then pyDigits (10 * acc + (c.toNat - '0'.toNat)) cs else none
  | c :: cs => if c.isDigit then pyDigits (10 * acc + (c.toNat - '0'.toNat)) cs else none

/-- An unsigned Python integer literal. -/
def pyNat : List Char → Option ℕ
  | [] => none
  | c :: cs => if c.isDigit then pyDigits (c.toNat - '0'.toNat) cs else none

/-- The characters that Python strips around an integer literal. -/
def isPySpace (c : Char) : Bool :=
  c = ' ' || c = '\t' || c = '\n' || c = '\r' || c = Char.ofNat 11 || c = Char.ofNat 12

/-- Drop the blanks at both ends. -/
def strip (s : List Char) : List Char :=
  ((s.dropWhile isPySpace).reverse.dropWhile isPySpace).reverse

/-- Python's `int(s)` on ASCII text; `none` stands for `ValueError`. -/
def pyInt (s : List Char) : Option ℤ :=
  match strip s with
  | '-' :: ds => (pyNat ds).map fun n => -(n : ℤ)
  | '+' :: ds => (pyNat ds).map fun n => (n : ℤ)
  | ds => (pyNat ds).map fun n => (n : ℤ)

/-- A digit is neither a blank nor a character with a meaning of its own. -/
lemma ne_of_isDigit {c d : Char} (hc : c.isDigit) (hd : d.isDigit = false) : c ≠ d := by
  rintro rfl
  simp [hc] at hd

/-- A digit is no white space. -/
lemma isPySpace_of_isDigit {c : Char} (hc : c.isDigit) : isPySpace c = false := by
  simp only [isPySpace, Bool.or_eq_false_iff, decide_eq_false_iff_not]
  exact ⟨⟨⟨⟨⟨ne_of_isDigit hc (by decide), ne_of_isDigit hc (by decide)⟩,
    ne_of_isDigit hc (by decide)⟩, ne_of_isDigit hc (by decide)⟩,
    ne_of_isDigit hc (by decide)⟩, ne_of_isDigit hc (by decide)⟩

/-- Text without blanks is not changed by stripping. -/
lemma strip_eq_self {s : List Char} (hs : ∀ c ∈ s, isPySpace c = false) : strip s = s := by
  have hdrop : ∀ t : List Char, (∀ c ∈ t, isPySpace c = false) → t.dropWhile isPySpace = t := by
    intro t ht
    cases t with
    | nil => rfl
    | cons c t => rw [List.dropWhile_cons_of_neg (by simp [ht c List.mem_cons_self])]
  have hrev : ∀ c ∈ s.reverse, isPySpace c = false := fun c hc => hs c (List.mem_reverse.mp hc)
  rw [strip, hdrop s hs, hdrop _ hrev, List.reverse_reverse]

/-- On plain digits the reader computes the positional value.

**Proof sketch.** Induction over the digits; an underscore is no digit, so that its branch is never
taken. -/
lemma pyDigits_eq {acc : ℕ} {ds : List Char} (hds : ∀ c ∈ ds, c.isDigit) :
    pyDigits acc ds = some (Nat.ofDigitChars 10 ds acc) := by
  induction ds generalizing acc with
  | nil => simp [pyDigits]
  | cons c ds ih =>
    have hc : c.isDigit := hds c List.mem_cons_self
    have hne : c ≠ '_' := ne_of_isDigit hc (by decide)
    have ihd := @ih (10 * acc + (c.toNat - '0'.toNat)) fun d hd => hds d (List.mem_cons_of_mem _ hd)
    rw [Nat.ofDigitChars_cons, ← ihd]
    cases ds with
    | nil => simp [pyDigits, hc]
    | cons d ds => rw [pyDigits] <;> simp [hc, hne]

/-- A number is written in digits. -/
lemma isDigit_of_mem_toDigits {n : ℕ} {c : Char} (hc : c ∈ Nat.toDigits 10 n) : c.isDigit :=
  Nat.isDigit_of_mem_toDigits (by decide) (by decide) hc

/-- **A number is read as it was written.**

**Proof sketch.** The digits of a number are not empty, all are digits, and their positional value
is the number. -/
lemma pyNat_toDigits (n : ℕ) : pyNat (Nat.toDigits 10 n) = some n := by
  obtain ⟨c, cs, hcs⟩ : ∃ c cs, Nat.toDigits 10 n = c :: cs :=
    List.exists_cons_of_ne_nil Nat.toDigits_ne_nil
  have hdig : ∀ d ∈ c :: cs, d.isDigit := by
    rw [← hcs]
    exact fun d hd => isDigit_of_mem_toDigits hd
  have hval : Nat.ofDigitChars 10 (c :: cs) 0 = n := by
    rw [← hcs]
    exact Nat.ofDigitChars_ten_toDigits
  rw [hcs, pyNat, if_pos (hdig c List.mem_cons_self),
    pyDigits_eq fun d hd => hdig d (List.mem_cons_of_mem _ hd)]
  rw [Nat.ofDigitChars_cons, Nat.mul_zero, Nat.zero_add] at hval
  rw [hval]

/-- A character of a printed integer is a digit or the minus sign. -/
lemma mem_showInt {z : ℤ} {c : Char} (hc : c ∈ showInt z) : c.isDigit ∨ c = '-' := by
  cases z with
  | ofNat n => exact Or.inl (isDigit_of_mem_toDigits hc)
  | negSucc n =>
    rcases List.mem_cons.mp hc with rfl | hc
    · exact Or.inr rfl
    · exact Or.inl (isDigit_of_mem_toDigits hc)

/-- An integer is written in at least one character. -/
lemma showInt_ne_nil (z : ℤ) : showInt z ≠ [] := by
  cases z with
  | ofNat n => exact Nat.toDigits_ne_nil
  | negSucc n => simp [showInt]

/-- **Decimal round trip**: Python's `int` reads a printed integer back.

**Proof sketch.** The text has no white space to strip. A minus sign is put in front by the one
function and taken off by the other, and a number without a sign begins with a digit, which is
neither sign. -/
theorem pyInt_showInt (z : ℤ) : pyInt (showInt z) = some z := by
  have hstrip : strip (showInt z) = showInt z := by
    refine strip_eq_self fun c hc => ?_
    rcases mem_showInt hc with h | rfl
    · exact isPySpace_of_isDigit h
    · decide
  rw [pyInt, hstrip]
  cases z with
  | negSucc n =>
    simp only [showInt, pyNat_toDigits]
    rfl
  | ofNat n =>
    obtain ⟨c, cs, hcs⟩ : ∃ c cs, Nat.toDigits 10 n = c :: cs :=
      List.exists_cons_of_ne_nil Nat.toDigits_ne_nil
    have hc : c.isDigit := isDigit_of_mem_toDigits (n := n) (by rw [hcs]; exact List.mem_cons_self)
    have hnat := pyNat_toDigits n
    rw [hcs] at hnat
    simp only [showInt, hcs]
    split
    · next h => exact absurd (List.cons.inj h).1 (ne_of_isDigit hc (by decide))
    · next h => exact absurd (List.cons.inj h).1 (ne_of_isDigit hc (by decide))
    · rw [hnat]
      rfl

/-- Digits that follow do not make a number smaller. -/
lemma ofDigitChars_le_append (ds es : List Char) (acc : ℕ) :
    Nat.ofDigitChars 10 ds acc ≤ Nat.ofDigitChars 10 (ds ++ es) acc := by
  have hpow : 0 < 10 ^ es.length := Nat.pow_pos (by decide)
  calc Nat.ofDigitChars 10 ds acc ≤ 10 ^ es.length * Nat.ofDigitChars 10 ds acc :=
        Nat.le_mul_of_pos_left _ hpow
    _ ≤ 10 ^ es.length * Nat.ofDigitChars 10 ds acc + Nat.ofDigitChars 10 es 0 :=
        Nat.le_add_right _ _
    _ = Nat.ofDigitChars 10 (ds ++ es) acc := by
        rw [Nat.ofDigitChars_append, ← Nat.ofDigitChars_eq_ofDigitChars_zero]

/-- On digits `int` computes the positional value.

**Proof sketch.** There is nothing to strip and no sign, and `pyNat` reads the digits. -/
lemma pyInt_digits {ds : List Char} (hne : ds ≠ []) (hds : ∀ c ∈ ds, c.isDigit) :
    pyInt ds = some (Nat.ofDigitChars 10 ds 0 : ℕ) := by
  obtain ⟨c, cs, rfl⟩ := List.exists_cons_of_ne_nil hne
  have hc : c.isDigit := hds c List.mem_cons_self
  have hnat : pyNat (c :: cs) = some (Nat.ofDigitChars 10 (c :: cs) 0) := by
    rw [pyNat, if_pos hc, pyDigits_eq fun d hd => hds d (List.mem_cons_of_mem _ hd),
      Nat.ofDigitChars_cons, Nat.mul_zero, Nat.zero_add]
  rw [pyInt, strip_eq_self fun d hd => isPySpace_of_isDigit (hds d hd)]
  split
  · next h => exact absurd (List.cons.inj h).1 (ne_of_isDigit hc (by decide))
  · next h => exact absurd (List.cons.inj h).1 (ne_of_isDigit hc (by decide))
  · rw [hnat]
    rfl

/-- **A natural number that is cut** is not a number any more, or a smaller one.

**Proof sketch.** What is left has only digits. If there are some, they are read by their positional
value, which does not grow when digits are taken off the end (`ofDigitChars_le_append`). -/
theorem pyInt_prefix {n : ℕ} {f : List Char} (h : f <+: showInt n) :
    pyInt f = none ∨ ∃ v : ℕ, pyInt f = some (v : ℤ) ∧ v ≤ n := by
  by_cases hnil : f = []
  · subst hnil
    exact Or.inl rfl
  · obtain ⟨rest, hrest⟩ := h
    have hdigits : ∀ c ∈ f, c.isDigit := fun c hc =>
      isDigit_of_mem_toDigits (n := n) (by
        show c ∈ showInt n
        rw [← hrest]
        exact List.mem_append_left _ hc)
    refine Or.inr ⟨_, pyInt_digits hnil hdigits, ?_⟩
    have hle := ofDigitChars_le_append f rest 0
    rw [hrest] at hle
    exact Nat.le_trans hle (Nat.le_of_eq Nat.ofDigitChars_ten_toDigits)

/-! ## Comma-separated rows -/

/-- The states of the reader between two characters. -/
inductive ReaderState
  | startRecord
  | startField
  | inField
  | inQuotedField
  | quoteInQuotedField
  deriving DecidableEq

/-- The rows of a comma-separated text, as the default dialect of Python's `csv.reader` finds
them: `field` and `fields` are the characters of the field being read and the fields of the
row before it. A text that ends inside a row ends that row. -/
def readCsv : ReaderState → List Char → List (List Char) → List Char → List (List (List Char))
  | .startRecord, _, _, [] => []
  | _, field, fields, [] => [fields ++ [field]]
  | .startRecord, field, fields, c :: cs =>
    if c = '\n' then [] :: readCsv .startRecord [] [] cs
    else if c = '\"' then readCsv .inQuotedField field fields cs
    else if c = ',' then readCsv .startField [] (fields ++ [field]) cs
    else readCsv .inField (field ++ [c]) fields cs
  | .startField, field, fields, c :: cs =>
    if c = '\n' then (fields ++ [field]) :: readCsv .startRecord [] [] cs
    else if c = '\"' then readCsv .inQuotedField field fields cs
    else if c = ',' then readCsv .startField [] (fields ++ [field]) cs
    else readCsv .inField (field ++ [c]) fields cs
  | .inField, field, fields, c :: cs =>
    if c = '\n' then (fields ++ [field]) :: readCsv .startRecord [] [] cs
    else if c = ',' then readCsv .startField [] (fields ++ [field]) cs
    else readCsv .inField (field ++ [c]) fields cs
  | .inQuotedField, field, fields, c :: cs =>
    if c = '\"' then readCsv .quoteInQuotedField field fields cs
    else readCsv .inQuotedField (field ++ [c]) fields cs
  | .quoteInQuotedField, field, fields, c :: cs =>
    if c = '\"' then readCsv .inQuotedField (field ++ [c]) fields cs
    else if c = ',' then readCsv .startField [] (fields ++ [field]) cs
    else if c = '\n' then (fields ++ [field]) :: readCsv .startRecord [] [] cs
    else readCsv .inField (field ++ [c]) fields cs

/-- Python's newline translation for a text opened in the default mode. -/
def universalNewlines : List Char → List Char
  | '\r' :: '\n' :: cs => '\n' :: universalNewlines cs
  | '\r' :: cs => '\n' :: universalNewlines cs
  | c :: cs => c :: universalNewlines cs
  | [] => []

/-- One row as the writer prints it: the fields joined by commas, ended by a newline. -/
def line : List (List Char) → List Char
  | [] => ['\n']
  | [f] => f ++ ['\n']
  | f :: g :: fs => f ++ ',' :: line (g :: fs)

/-- A character without a meaning for the reader. -/
def PlainChar (c : Char) : Prop := c ≠ ',' ∧ c ≠ '\"' ∧ c ≠ '\n' ∧ c ≠ '\r'

/-- A field that needs no quoting: not empty, and free of commas, quotes and line ends. -/
def Plain (f : List Char) : Prop := f ≠ [] ∧ ∀ c ∈ f, PlainChar c

instance (c : Char) : Decidable (PlainChar c) := inferInstanceAs (Decidable (_ ∧ _))

/-- A check of all characters shows that a field is plain. -/
lemma plain_of_all {f : List Char} (hne : f ≠ []) (h : f.all (fun c => decide (PlainChar c))) :
    Plain f :=
  ⟨hne, fun c hc => of_decide_eq_true (List.all_eq_true.mp h c hc)⟩

/-- A printed integer needs no quoting. -/
lemma plain_showInt (z : ℤ) : Plain (showInt z) := by
  refine ⟨showInt_ne_nil z, fun c hc => ?_⟩
  rcases mem_showInt hc with h | rfl
  · exact ⟨ne_of_isDigit h (by decide), ne_of_isDigit h (by decide),
      ne_of_isDigit h (by decide), ne_of_isDigit h (by decide)⟩
  · exact ⟨by decide, by decide, by decide, by decide⟩

/-- Inside a field, plain characters are collected. -/
lemma readCsv_inField_append {f : List Char} (hf : ∀ c ∈ f, PlainChar c)
    (field : List Char) (fields : List (List Char)) (cs : List Char) :
    readCsv .inField field fields (f ++ cs) = readCsv .inField (field ++ f) fields cs := by
  induction f generalizing field with
  | nil => simp
  | cons c f ih =>
    obtain ⟨h1, -, h3, -⟩ := hf c List.mem_cons_self
    rw [List.cons_append, readCsv, if_neg h3, if_neg h1,
      ih fun d hd => hf d (List.mem_cons_of_mem _ hd), List.append_assoc, List.singleton_append]

/-- At the start of a field, a plain field is read as a whole. -/
lemma readCsv_startField_append {f : List Char} (hf : Plain f) (fields : List (List Char))
    (cs : List Char) :
    readCsv .startField [] fields (f ++ cs) = readCsv .inField f fields cs := by
  obtain ⟨hne, hc⟩ := hf
  cases f with
  | nil => exact absurd rfl hne
  | cons c f =>
    obtain ⟨h1, h2, h3, -⟩ := hc c List.mem_cons_self
    rw [List.cons_append, readCsv, if_neg h3, if_neg h2, if_neg h1,
      readCsv_inField_append fun d hd => hc d (List.mem_cons_of_mem _ hd)]
    rfl

/-- **A line is read from its first field on**: its fields are added to those before it, and the
record ends.

**Proof sketch.** Induction on the fields. A plain field is read up to the comma behind it, or up to
the end of the line for the last one. -/
lemma readCsv_startField_line {fs : List (List Char)} (hne : fs ≠ []) (hfs : ∀ f ∈ fs, Plain f)
    (fields : List (List Char)) (rest : List Char) :
    readCsv .startField [] fields (line fs ++ rest) =
      (fields ++ fs) :: readCsv .startRecord [] [] rest := by
  induction fs generalizing fields with
  | nil => exact absurd rfl hne
  | cons f fs ih =>
    have hf := hfs f List.mem_cons_self
    cases fs with
    | nil =>
      rw [line, List.append_assoc, readCsv_startField_append hf, List.singleton_append, readCsv,
        if_pos rfl]
    | cons g fs =>
      rw [line, List.append_assoc, readCsv_startField_append hf, List.cons_append, readCsv,
        if_neg (by decide), if_pos rfl,
        ih (List.cons_ne_nil _ _) (fun f' hf' => hfs f' (List.mem_cons_of_mem _ hf')),
        List.append_assoc, List.singleton_append]

/-- A row whose first field is plain is read alike from the start of a record and from the
start of a field. -/
lemma readCsv_startRecord_eq {c : Char} (hc : c ≠ '\n') (cs : List Char) :
    readCsv .startRecord [] [] (c :: cs) = readCsv .startField [] [] (c :: cs) := by
  rw [readCsv, readCsv, if_neg hc, if_neg hc]

/-- **Row round trip**: a written row of plain fields is read back as one row.

**Proof sketch.** The line begins with a character of its first field, which is not empty and no
line feed, so the record begins with this field. -/
theorem readCsv_line {fs : List (List Char)} (hne : fs ≠ []) (hfs : ∀ f ∈ fs, Plain f)
    (rest : List Char) :
    readCsv .startRecord [] [] (line fs ++ rest) = fs :: readCsv .startRecord [] [] rest := by
  obtain ⟨c, cs, hc, hcs⟩ : ∃ c cs, c ≠ '\n' ∧ line fs ++ rest = c :: cs := by
    cases fs with
    | nil => exact absurd rfl hne
    | cons f fs =>
      obtain ⟨hfne, hfc⟩ := hfs f List.mem_cons_self
      obtain ⟨c, f', rfl⟩ := List.exists_cons_of_ne_nil hfne
      have hc := (hfc c List.mem_cons_self).2.2.1
      cases fs with
      | nil => exact ⟨c, _, hc, rfl⟩
      | cons g fs => exact ⟨c, _, hc, rfl⟩
  have h := readCsv_startField_line hne hfs [] rest
  rw [hcs] at h ⊢
  rw [readCsv_startRecord_eq hc, h, List.nil_append]

/-- Text without carriage returns is not changed by the newline translation. -/
lemma universalNewlines_eq_self {s : List Char} (hs : ∀ c ∈ s, c ≠ '\r') :
    universalNewlines s = s := by
  induction s with
  | nil => rfl
  | cons c s ih =>
    have hc := hs c List.mem_cons_self
    rw [universalNewlines, ih fun d hd => hs d (List.mem_cons_of_mem _ hd)]
    · exact fun _ h => absurd h hc
    · exact hc

/-- The characters of a written row.

**Proof sketch.** Induction on the fields: a character is in the first field, the comma behind it,
or in the line of the others. -/
lemma mem_line {fs : List (List Char)} {c : Char} (hc : c ∈ line fs) :
    (∃ f ∈ fs, c ∈ f) ∨ c = ',' ∨ c = '\n' := by
  induction fs with
  | nil => exact Or.inr (Or.inr (by simpa [line] using hc))
  | cons f fs ih =>
    cases fs with
    | nil =>
      rcases List.mem_append.mp hc with h | h
      · exact Or.inl ⟨f, List.mem_cons_self, h⟩
      · exact Or.inr (Or.inr (by simpa using h))
    | cons g fs =>
      rcases List.mem_append.mp hc with h | h
      · exact Or.inl ⟨f, List.mem_cons_self, h⟩
      · rcases List.mem_cons.mp h with h | h
        · exact Or.inr (Or.inl h)
        · rcases ih h with ⟨f', hf', h'⟩ | h'
          · exact Or.inl ⟨f', List.mem_cons_of_mem _ hf', h'⟩
          · exact Or.inr h'

/-- A written row of plain fields has no carriage return. -/
lemma ne_cr_of_mem_line {fs : List (List Char)} (hfs : ∀ f ∈ fs, Plain f) {c : Char}
    (hc : c ∈ line fs) : c ≠ '\r' := by
  rcases mem_line hc with ⟨f, hf, h⟩ | rfl | rfl
  · exact ((hfs f hf).2 c h).2.2.2
  · decide
  · decide

/-! ### Rows that are cut -/

/-- A prefix of a sequence of rows: whole rows, or whole rows and a row that is cut.

**Proof sketch.** Induction on the rows. Either the part is a prefix of the first row, and then
nothing, that row, or a cut of it; or it has the first row in front, and the rest is a prefix of the
others. -/
theorem prefix_rows {rows : List (List (List Char))} {part : List Char}
    (h : part <+: rows.flatMap line) :
    (∃ whole, whole <+: rows ∧ part = whole.flatMap line) ∨
      ∃ whole row more cut, rows = whole ++ row :: more ∧ part = whole.flatMap line ++ cut ∧
        cut ≠ [] ∧ cut <+: line row ∧ cut ≠ line row := by
  induction rows generalizing part with
  | nil =>
    rw [List.flatMap_nil, List.prefix_nil] at h
    exact Or.inl ⟨[], List.nil_prefix, h⟩
  | cons row rows ih =>
    rw [List.flatMap_cons] at h
    rcases List.prefix_or_prefix_of_prefix h (List.prefix_append (line row) _) with hcut | hline
    · by_cases hnil : part = []
      · exact Or.inl ⟨[], List.nil_prefix, hnil⟩
      · by_cases heq : part = line row
        · refine Or.inl ⟨[row], ?_, ?_⟩
          · simp
          · simp [heq]
        · exact Or.inr ⟨[], row, rows, part, rfl, rfl, hnil, hcut, heq⟩
    · obtain ⟨part, rfl⟩ := hline
      rcases ih ((List.prefix_append_right_inj _).mp h) with
        ⟨whole, hwhole, rfl⟩ | ⟨whole, row', more, cut, rfl, rfl, hcut⟩
      · exact Or.inl ⟨row :: whole, by simpa using hwhole, by simp⟩
      · exact Or.inr ⟨row :: whole, row', more, cut, rfl, by simp, hcut⟩

/-- A field without a comma, and what the reader makes of it at the end of the text. -/
lemma readCsv_startField_end {f : List Char} (hf : ∀ c ∈ f, PlainChar c)
    (fields : List (List Char)) : readCsv .startField [] fields f = [fields ++ [f]] := by
  by_cases hnil : f = []
  · rw [hnil, readCsv]
    simp
  · have hread := readCsv_startField_append ⟨hnil, hf⟩ fields []
    rw [List.append_nil] at hread
    rw [hread, readCsv]
    simp

/-- A plain field has no comma. -/
lemma count_comma {f : List Char} (hf : ∀ c ∈ f, PlainChar c) : f.count ',' = 0 :=
  List.count_eq_zero.mpr fun hmem => (hf ',' hmem).1 rfl

/-- **A row that is cut** has its first fields whole and a prefix of the next one. The commas that
are left say how many fields are whole.

**Proof sketch.** Induction on the fields. If the cut is in the first field, there is no comma, and
the field ends with the text. If not, the first field and its comma are read, and the rest is a cut
of the row of the other fields with one comma less. -/
theorem readCsv_cut {fs : List (List Char)} (hfs : ∀ f ∈ fs, Plain f) (hnil : fs ≠ [])
    {cut : List Char} (hcut : cut <+: line fs) (hne : cut ≠ line fs) (fields : List (List Char)) :
    ∃ f f', fs[cut.count ',']? = some f' ∧ f <+: f' ∧
      readCsv .startField [] fields cut = [fields ++ (fs.take (cut.count ',') ++ [f])] := by
  induction fs generalizing cut fields with
  | nil => exact absurd rfl hnil
  | cons f fs ih =>
    have hf := (hfs f List.mem_cons_self).2
    -- the cut is in the first field
    have hfirst (h : cut <+: f) : ∃ f₁ f', (f :: fs)[cut.count ',']? = some f' ∧ f₁ <+: f' ∧
        readCsv .startField [] fields cut =
          [fields ++ ((f :: fs).take (cut.count ',') ++ [f₁])] := by
      have hplain : ∀ c ∈ cut, PlainChar c := fun c hc => hf c (h.subset hc)
      rw [count_comma hplain]
      exact ⟨cut, f, rfl, h, readCsv_startField_end hplain fields⟩
    cases fs with
    | nil =>
      rw [line] at hcut hne
      rcases List.prefix_concat_iff.mp hcut with heq | h
      · exact absurd heq hne
      · exact hfirst h
    | cons g fs =>
      rw [line] at hcut hne
      rcases List.prefix_or_prefix_of_prefix hcut (List.prefix_append f _) with h | ⟨rest, rfl⟩
      · exact hfirst h
      · have hrest := (List.prefix_append_right_inj _).mp hcut
        rcases List.prefix_cons_iff.mp hrest with rfl | ⟨cut, rfl, hcut'⟩
        · exact hfirst (by simp)
        · obtain ⟨f₁, f', hget, hf', hread⟩ := ih (fun x hx => hfs x (List.mem_cons_of_mem _ hx))
            (List.cons_ne_nil _ _) hcut' (fun heq => hne (by rw [heq])) (fields ++ [f])
          have hcount : (f ++ ',' :: cut).count ',' = cut.count ',' + 1 := by
            rw [List.count_append, count_comma hf, List.count_cons_self, Nat.zero_add]
          rw [hcount]
          refine ⟨f₁, f', hget, hf', ?_⟩
          rw [readCsv_startField_append (hfs f List.mem_cons_self), readCsv, if_neg (by decide),
            if_pos rfl, hread, List.take_succ_cons]
          simp

/-! ## Row dictionaries -/

/-- The item that `csv.DictReader` stores under `key` for the row `row` below the header
`names`: `none` when there is no such key, `some none` for the `None` that fills up a short
row. A name that occurs twice in the header keeps its last field. -/
def dictGet (names row : List (List Char)) (key : List Char) : Option (Option (List Char)) :=
  ((names.zip (row.map some ++ List.replicate (names.length - row.length) none)).reverse).lookup key

end CsvText
