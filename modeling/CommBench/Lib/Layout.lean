import Mathlib.Data.List.FinRange
import Mathlib.Data.Nat.ModEq
import Mathlib.Tactic.Common
import Mathlib.Tactic.Ring

set_option relaxedAutoImplicit false
set_option autoImplicit false

/-!
# Little-endian layouts of fixed-size records

A record type is a list of fields, each a fixed number of elements of a fixed size in bytes.
Two layouts of such a record are compared: the object representation of a C struct under a
natural-alignment ABI, where every member starts at the next multiple of its element size and
the struct ends at a multiple of its largest alignment, and the body of a CDR encoding, where
every single element is aligned to its own size relative to the start of the body. Bytes that
belong to no element are taken from an arbitrary function of their offset.

## Main definitions

* `Layout.FieldType`, `Layout.Values` — record types and their values, element by element as
  bit vectors.
* `Layout.structMembers`, `Layout.objectBytes`, `Layout.structDecode` — the C struct.
* `Layout.cdrBody`, `Layout.cdrDecode` — the CDR body.
* `Layout.gapless` — no member needs padding in front of it.

## Main results

* `Layout.cdrBody_eq_structMembers`, `Layout.cdrDecode_eq_structDecode` — the two layouts put
  every element at the same offset.
* `Layout.structDecode_structMembers`, `Layout.structMembers_structDecode` — decoding and
  encoding are inverse to each other, the latter for gapless records.
-/

namespace Layout

/-! ## Little-endian numbers -/

/-- The first `n` little-endian bytes of a natural number. -/
def natBytes : ℕ → ℕ → List UInt8
  | 0, _ => []
  | n + 1, x => UInt8.ofNat x :: natBytes n (x / 256)

/-- The natural number with the given little-endian bytes. -/
def bytesNat : List UInt8 → ℕ
  | [] => 0
  | b :: bs => b.toNat + 256 * bytesNat bs

/-- A number is written in as many bytes as asked for. -/
@[simp] lemma length_natBytes (n x : ℕ) : (natBytes n x).length = n := by
  induction n generalizing x with
  | zero => rfl
  | succ n ih => simp [natBytes, ih]

/-- The number that some bytes stand for is below the power for their length. -/
lemma bytesNat_lt (bs : List UInt8) : bytesNat bs < 256 ^ bs.length := by
  induction bs with
  | nil => simp [bytesNat]
  | cons b bs ih =>
    have hb := b.toNat_lt
    simp only [bytesNat, List.length_cons, pow_succ]
    omega

/-- **A number is read from its bytes**, when it fits in them. -/
lemma bytesNat_natBytes {n x : ℕ} (hx : x < 256 ^ n) : bytesNat (natBytes n x) = x := by
  induction n generalizing x with
  | zero =>
    simp only [pow_zero, Nat.lt_one_iff] at hx
    simp [natBytes, bytesNat, hx]
  | succ n ih =>
    have hdiv : x / 256 < 256 ^ n := by
      rw [pow_succ] at hx
      omega
    rw [natBytes, bytesNat, ih hdiv, UInt8.toNat_ofNat']
    omega

/-- **Bytes are those of the number that they stand for.** -/
lemma natBytes_bytesNat (bs : List UInt8) : natBytes bs.length (bytesNat bs) = bs := by
  induction bs with
  | nil => rfl
  | cons b bs ih =>
    have hb := b.toNat_lt
    have hdiv : (b.toNat + 256 * bytesNat bs) / 256 = bytesNat bs := by omega
    have hhead : UInt8.ofNat (b.toNat + 256 * bytesNat bs) = b := by
      apply UInt8.toNat_inj.mp
      rw [UInt8.toNat_ofNat']
      omega
    rw [List.length_cons, bytesNat, natBytes, hdiv, ih, hhead]

/-- The bytes of one element. -/
def elemBytes {n : ℕ} (x : BitVec (8 * n)) : List UInt8 := natBytes n x.toNat

/-- The element of `n` bytes at offset `pos`. -/
def elemAt (n : ℕ) (bytes : List UInt8) (pos : ℕ) : BitVec (8 * n) :=
  BitVec.ofNat (8 * n) (bytesNat ((bytes.drop pos).take n))

/-- An element of `n` bytes has `n` bytes. -/
@[simp] lemma length_elemBytes {n : ℕ} (x : BitVec (8 * n)) : (elemBytes x).length = n :=
  length_natBytes n _

/-- The values of `n` bytes. -/
lemma two_pow_eight_mul (n : ℕ) : 2 ^ (8 * n) = 256 ^ n := pow_mul 2 8 n

/-- Reading the bytes of an element gives the element back. -/
lemma elemAt_eq {n : ℕ} {bytes : List UInt8} {pos : ℕ} {x : BitVec (8 * n)}
    (h : (bytes.drop pos).take n = elemBytes x) : elemAt n bytes pos = x := by
  have hx : x.toNat < 256 ^ n := two_pow_eight_mul n ▸ x.isLt
  rw [elemAt, h, elemBytes, bytesNat_natBytes hx, BitVec.ofNat_toNat, BitVec.setWidth_eq]

/-- Writing an element that was read gives its bytes back.

**Proof sketch.** The bytes that are read make a number below `2^(8n)`, which the element holds
without a loss. -/
lemma elemBytes_elemAt {n : ℕ} {bytes : List UInt8} {pos : ℕ} (h : pos + n ≤ bytes.length) :
    elemBytes (elemAt n bytes pos) = (bytes.drop pos).take n := by
  set chunk := (bytes.drop pos).take n with hchunk
  have hlen : chunk.length = n := by
    rw [hchunk, List.length_take, List.length_drop]
    omega
  have hlt : bytesNat chunk < 2 ^ (8 * n) := by
    have := bytesNat_lt chunk
    rwa [hlen, ← two_pow_eight_mul] at this
  rw [elemAt, elemBytes, ← hchunk, BitVec.toNat_ofNat, Nat.mod_eq_of_lt hlt]
  conv_lhs => rw [← hlen]
  exact natBytes_bytesNat chunk

/-! ## Records -/

/-- A field: `count` consecutive elements of `size` bytes each. -/
structure FieldType where
  size : ℕ
  count : ℕ
  deriving DecidableEq

/-- The number of bytes of the elements of a field. -/
def FieldType.bytes (f : FieldType) : ℕ := f.count * f.size

/-- The values of a field. -/
abbrev FieldType.Value (f : FieldType) : Type := Vector (BitVec (8 * f.size)) f.count

/-- The values of a record. -/
def Values : List FieldType → Type
  | [] => Unit
  | f :: fs => f.Value × Values fs

/-- The bytes from `pos` up to the next multiple of `align`. -/
def padding (align pos : ℕ) : ℕ := (align - pos % align) % align

/-- `n` bytes at the offsets from `pos` on that belong to no element. -/
def fillBytes (fill : ℕ → UInt8) (pos n : ℕ) : List UInt8 :=
  (List.range n).map fun i => fill (pos + i)

/-- The indeterminate bytes are as many as asked for. -/
@[simp] lemma length_fillBytes (fill : ℕ → UInt8) (pos n : ℕ) :
    (fillBytes fill pos n).length = n := by simp [fillBytes]

/-- The members of a C struct from offset `pos` on. -/
def structMembers (fill : ℕ → UInt8) : (fs : List FieldType) → ℕ → Values fs → List UInt8
  | [], _, _ => []
  | f :: fs, pos, (v, vs) =>
    fillBytes fill pos (padding f.size pos) ++ v.toList.flatMap elemBytes ++
      structMembers fill fs (pos + padding f.size pos + f.bytes) vs

/-- The largest alignment of a member. -/
def maxAlign (fs : List FieldType) : ℕ := (fs.map FieldType.size).foldr max 1

/-- The object representation of a C struct: its members and the padding at its end. -/
def objectBytes (fill : ℕ → UInt8) (fs : List FieldType) (vs : Values fs) : List UInt8 :=
  let members := structMembers fill fs 0 vs
  members ++ fillBytes fill members.length (padding (maxAlign fs) members.length)

/-- Read the members of a C struct from offset `pos` on. -/
def structDecode : (fs : List FieldType) → ℕ → List UInt8 → Values fs
  | [], _, _ => ()
  | f :: fs, pos, bytes =>
    (Vector.ofFn fun i => elemAt f.size bytes (pos + padding f.size pos + i * f.size),
      structDecode fs (pos + padding f.size pos + f.bytes) bytes)

/-- The elements of a field in a CDR body, each aligned on its own. -/
def cdrElems (fill : ℕ → UInt8) {n : ℕ} : ℕ → List (BitVec (8 * n)) → List UInt8
  | _, [] => []
  | pos, x :: xs =>
    fillBytes fill pos (padding n pos) ++ elemBytes x ++
      cdrElems fill (pos + padding n pos + n) xs

/-- The body of a CDR encoding from offset `pos` on. -/
def cdrBody (fill : ℕ → UInt8) : (fs : List FieldType) → ℕ → Values fs → List UInt8
  | [], _, _ => []
  | _ :: fs, pos, (v, vs) =>
    let elems := cdrElems fill pos v.toList
    elems ++ cdrBody fill fs (pos + elems.length) vs

/-- The offset of element `i` of a field that a CDR reader at `pos` comes to. -/
def cdrPos (n pos : ℕ) : ℕ → ℕ
  | 0 => pos + padding n pos
  | i + 1 => cdrPos n pos i + n + padding n (cdrPos n pos i + n)

/-- Read a CDR body from offset `pos` on. -/
def cdrDecode : (fs : List FieldType) → ℕ → List UInt8 → Values fs
  | [], _, _ => ()
  | f :: fs, pos, bytes =>
    (Vector.ofFn fun i => elemAt f.size bytes (cdrPos f.size pos i),
      cdrDecode fs (if f.count = 0 then pos else cdrPos f.size pos (f.count - 1) + f.size) bytes)

/-- No member from offset `pos` on needs padding in front of it. -/
def gapless : List FieldType → ℕ → Bool
  | [], _ => true
  | f :: fs, pos => padding f.size pos == 0 && gapless fs (pos + f.bytes)

/-- The number of bytes of all elements. -/
def totalBytes (fs : List FieldType) : ℕ := (fs.map FieldType.bytes).sum

/-! ## Alignment -/

/-- Padding leads to a multiple of the alignment, and whole elements keep to these. -/
lemma padding_aligned (n pos i : ℕ) : padding n (pos + padding n pos + i * n) = 0 := by
  rcases Nat.eq_zero_or_pos n with rfl | hn
  · simp [padding]
  · have hlt := Nat.mod_lt pos hn
    have hmod : (pos + padding n pos + i * n) % n = 0 := by
      rw [Nat.add_mul_mod_self_right, padding, Nat.add_mod, Nat.mod_mod]
      rcases Nat.eq_zero_or_pos (pos % n) with h | h
      · simp [h]
      · rw [Nat.mod_eq_of_lt (a := n - pos % n) (by omega),
          show pos % n + (n - pos % n) = n by omega, Nat.mod_self]
    rw [padding, hmod, Nat.sub_zero, Nat.mod_self]

/-- **The position of an element** in the CDR stream: the first one is aligned, and the others
follow without a gap. -/
lemma cdrPos_eq (n pos i : ℕ) : cdrPos n pos i = pos + padding n pos + i * n := by
  induction i with
  | zero => simp [cdrPos]
  | succ i ih =>
    have hpad := padding_aligned n pos (i + 1)
    rw [Nat.succ_mul, ← Nat.add_assoc] at hpad
    rw [cdrPos, ih, hpad]
    ring

/-- Only the first element of a field may need padding.

**Proof sketch.** Induction on the elements. Behind an aligned element the next position is aligned,
so its padding is empty (`padding_aligned`). -/
lemma cdrElems_eq (fill : ℕ → UInt8) {n pos : ℕ} {xs : List (BitVec (8 * n))} (hne : xs ≠ []) :
    cdrElems fill pos xs = fillBytes fill pos (padding n pos) ++ xs.flatMap elemBytes := by
  induction xs generalizing pos with
  | nil => exact absurd rfl hne
  | cons x xs ih =>
    rw [cdrElems, List.flatMap_cons, ← List.append_assoc]
    congr 1
    cases xs with
    | nil => rfl
    | cons y xs =>
      have hpad := padding_aligned n pos 1
      rw [Nat.one_mul] at hpad
      rw [ih (List.cons_ne_nil y xs), hpad]
      rfl

/-- The bytes of an array. -/
lemma length_flatMap_elemBytes {n : ℕ} (xs : List (BitVec (8 * n))) :
    (xs.flatMap elemBytes).length = xs.length * n := by
  induction xs with
  | nil => simp
  | cons x xs ih =>
    rw [List.flatMap_cons, List.length_append, ih, length_elemBytes, List.length_cons]
    ring

/-- **The two layouts agree** on records without empty fields.

**Proof sketch.** Induction on the fields. The elements of a field are padded once, in front of the
first one (`cdrElems_eq`), which is where the struct pads the member; both then stand at the same
position. -/
theorem cdrBody_eq_structMembers (fill : ℕ → UInt8) {fs : List FieldType}
    (hfs : ∀ f ∈ fs, 0 < f.count) (pos : ℕ) (vs : Values fs) :
    cdrBody fill fs pos vs = structMembers fill fs pos vs := by
  induction fs generalizing pos with
  | nil => rfl
  | cons f fs ih =>
    obtain ⟨v, vs⟩ := vs
    have hne : v.toList ≠ [] := by
      have := hfs f List.mem_cons_self
      exact List.ne_nil_of_length_pos (by rwa [Vector.length_toList])
    have hlen : (fillBytes fill pos (padding f.size pos) ++ v.toList.flatMap elemBytes).length =
        padding f.size pos + f.bytes := by
      rw [List.length_append, length_fillBytes, length_flatMap_elemBytes, Vector.length_toList]
      rfl
    simp only [cdrBody, structMembers, cdrElems_eq fill hne, hlen]
    rw [ih (fun g hg => hfs g (List.mem_cons_of_mem _ hg)), Nat.add_assoc pos]

/-- **The CDR stream is decoded as the struct is**, when no field is an empty array.

**Proof sketch.** Induction on the fields. By `cdrPos_eq` every element is read at the place where
it stands in the struct, and the field ends where the member does. -/
theorem cdrDecode_eq_structDecode {fs : List FieldType} (hfs : ∀ f ∈ fs, 0 < f.count) (pos : ℕ)
    (bytes : List UInt8) : cdrDecode fs pos bytes = structDecode fs pos bytes := by
  induction fs generalizing pos with
  | nil => rfl
  | cons f fs ih =>
    have hcount := hfs f List.mem_cons_self
    have hpos : cdrPos f.size pos (f.count - 1) + f.size =
        pos + padding f.size pos + f.bytes := by
      obtain ⟨k, hk⟩ : ∃ k, f.count = k + 1 := ⟨f.count - 1, by omega⟩
      rw [cdrPos_eq, FieldType.bytes, hk, Nat.add_sub_cancel]
      ring
    simp only [cdrDecode, structDecode, cdrPos_eq, if_neg (Nat.ne_of_gt hcount)]
    rw [← cdrPos_eq, hpos, ih fun g hg => hfs g (List.mem_cons_of_mem _ hg)]

/-! ## Round trips -/

/-- Element `i` of a field stands `i` element sizes behind its start.

**Proof sketch.** Induction on the elements: dropping the bytes of the first one turns element `i +
1` into element `i` of the others. -/
lemma take_drop_flatMap_elemBytes {n : ℕ} {xs : List (BitVec (8 * n))} (post : List UInt8) {i : ℕ}
    (hi : i < xs.length) :
    ((xs.flatMap elemBytes ++ post).drop (i * n)).take n = elemBytes xs[i] := by
  induction xs generalizing i with
  | nil => simp at hi
  | cons x xs ih =>
    rw [List.flatMap_cons, List.append_assoc]
    cases i with
    | zero => simp
    | succ i =>
      rw [List.drop_append, length_elemBytes, List.drop_eq_nil_of_le (by
        rw [length_elemBytes, Nat.succ_mul]
        omega), List.nil_append, Nat.succ_mul, Nat.add_sub_cancel]
      exact ih (by simpa using hi)

/-- **Decoding inverts encoding**, whatever stands before and after the members.

**Proof sketch.** Induction on the fields, with everything in front as `pre`. The first member
stands behind its padding, and its elements are found by `take_drop_flatMap_elemBytes`; for the
others, the padding and the first member join what is in front. -/
theorem structDecode_structMembers (fill : ℕ → UInt8) (fs : List FieldType) (vs : Values fs)
    (pre post : List UInt8) :
    structDecode fs pre.length (pre ++ structMembers fill fs pre.length vs ++ post) = vs := by
  induction fs generalizing pre with
  | nil => rfl
  | cons f fs ih =>
    obtain ⟨v, vs⟩ := vs
    set gap := fillBytes fill pre.length (padding f.size pre.length) with hgap
    set elems := v.toList.flatMap elemBytes with helems
    have hstart : pre.length + padding f.size pre.length = (pre ++ gap).length := by
      simp [hgap]
    have hnext :
        pre.length + padding f.size pre.length + f.bytes = (pre ++ gap ++ elems).length := by
      have hlen : elems.length = f.bytes := by
        rw [helems, length_flatMap_elemBytes, Vector.length_toList]
        rfl
      rw [hstart, ← hlen, ← List.length_append]
    have hbytes : pre ++ structMembers fill (f :: fs) pre.length (v, vs) ++ post =
        pre ++ gap ++ elems ++
          structMembers fill fs (pre ++ gap ++ elems).length vs ++ post := by
      simp only [structMembers, ← hgap, ← helems, hnext, List.append_assoc]
    refine Prod.ext ?_ ?_
    · apply Vector.ext
      intro i hi
      simp only [structDecode, Vector.getElem_ofFn]
      apply elemAt_eq
      rw [hbytes, hstart, List.append_assoc (pre ++ gap ++ elems), List.append_assoc (pre ++ gap),
        List.drop_append, List.drop_eq_nil_of_le (Nat.le_add_right _ _), List.nil_append,
        Nat.add_sub_cancel_left]
      have hi' : i < v.toList.length := by rwa [Vector.length_toList]
      have helem := take_drop_flatMap_elemBytes
        (structMembers fill fs (pre ++ gap ++ elems).length vs ++ post) hi'
      rwa [Vector.getElem_toList] at helem
    · simp only [structDecode]
      rw [hbytes, hnext]
      exact ih vs (pre ++ gap ++ elems)

/-- Consecutive chunks of `n` bytes make up the bytes they were cut from. -/
lemma flatMap_chunks (bytes : List UInt8) (p n : ℕ) (k : ℕ) :
    (List.range k).flatMap (fun i => (bytes.drop (p + i * n)).take n) =
      (bytes.drop p).take (k * n) := by
  induction k with
  | zero => simp
  | succ k ih =>
    rw [List.range_succ, List.flatMap_append, ih, List.flatMap_cons, List.flatMap_nil,
      List.append_nil, Nat.succ_mul, List.take_add, List.drop_drop]

/-- **Encoding inverts decoding** on gapless records that end with the bytes.

**Proof sketch.** Induction on the fields. Without gaps there is no padding, and the elements of the
first member are the chunks of the bytes that it covers (`flatMap_chunks`); the others cover the
rest. -/
theorem structMembers_structDecode (fill : ℕ → UInt8) {fs : List FieldType} {pos : ℕ}
    {bytes : List UInt8} (hgap : gapless fs pos = true)
    (hlen : bytes.length = pos + totalBytes fs) :
    structMembers fill fs pos (structDecode fs pos bytes) = bytes.drop pos := by
  induction fs generalizing pos with
  | nil =>
    have : bytes.length ≤ pos := by rw [hlen]; simp [totalBytes]
    simp [structMembers, List.drop_eq_nil_of_le this]
  | cons f fs ih =>
    simp only [gapless, Bool.and_eq_true, beq_iff_eq] at hgap
    obtain ⟨hpad, hgap⟩ := hgap
    have htotal : totalBytes (f :: fs) = f.bytes + totalBytes fs := by simp [totalBytes]
    have hlen' : bytes.length = pos + f.bytes + totalBytes fs := by omega
    have helems : (Vector.ofFn fun i : Fin f.count =>
        elemAt f.size bytes (pos + i * f.size)).toList.flatMap elemBytes =
          (bytes.drop pos).take f.bytes := by
      rw [FieldType.bytes, ← flatMap_chunks, Vector.toList_ofFn, List.ofFn_eq_map,
        List.flatMap_map, ← List.map_coe_finRange_eq_range, List.flatMap_map]
      refine List.flatMap_congr fun i _ => elemBytes_elemAt ?_
      have hi : (i + 1) * f.size ≤ f.bytes := Nat.mul_le_mul_right _ i.isLt
      rw [Nat.succ_mul] at hi
      omega
    simp only [structMembers, structDecode, hpad, Nat.add_zero]
    rw [helems, ih hgap hlen']
    simp [fillBytes, ← List.drop_drop]

/-- In a gapless record the bytes between the elements do not matter. -/
lemma structMembers_fill_irrel (fill fill' : ℕ → UInt8) {fs : List FieldType} {pos : ℕ}
    (hgap : gapless fs pos = true) (vs : Values fs) :
    structMembers fill fs pos vs = structMembers fill' fs pos vs := by
  induction fs generalizing pos with
  | nil => rfl
  | cons f fs ih =>
    obtain ⟨v, vs⟩ := vs
    simp only [gapless, Bool.and_eq_true, beq_iff_eq] at hgap
    simp only [structMembers, hgap.1, Nat.add_zero]
    rw [ih hgap.2]
    rfl

/-- **The bytes of a struct** without gaps are those of its members. -/
lemma length_structMembers (fill : ℕ → UInt8) {fs : List FieldType} {pos : ℕ}
    (hgap : gapless fs pos = true) (vs : Values fs) :
    (structMembers fill fs pos vs).length = totalBytes fs := by
  induction fs generalizing pos with
  | nil => rfl
  | cons f fs ih =>
    obtain ⟨v, vs⟩ := vs
    simp only [gapless, Bool.and_eq_true, beq_iff_eq] at hgap
    simp only [structMembers, hgap.1, Nat.add_zero, List.length_append, length_fillBytes,
      length_flatMap_elemBytes, Vector.length_toList, ih hgap.2]
    simp [totalBytes, FieldType.bytes]

end Layout
