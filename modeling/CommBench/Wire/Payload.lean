import Mathlib.Data.List.FinRange
import CommBench.Lib.Layout

set_option relaxedAutoImplicit false
set_option autoImplicit false

/-!
# The payload on its two wire paths

The 1 KiB payload exists three times in the source: as the C struct `Payload` of `payload.hpp`,
whose object representation `raw_udp` sends, as the message of `Payload.msg`, which the ROS 2
transports serialize, and in the copy helpers `to_msg` and `from_msg` between the two. This
module models all three. A `double` is its bit pattern, so that every value is covered.

## Main definitions

* `CommBench.Payload`, `CommBench.PayloadMsg` — the struct and the message.
* `CommBench.toMsg`, `CommBench.fromMsg` — the copy helpers with their loops.
* `CommBench.payloadStruct`, `CommBench.payloadMsgFields` — the two field lists.
* `CommBench.Payload.objectRepr`, `CommBench.Payload.ofBytes` — the bytes on the raw wire.
* `CommBench.PayloadMsg.cdrBytes`, `CommBench.PayloadMsg.ofCdr` — the bytes on the ROS 2 wire.

## Main results

* `CommBench.toMsg_eq`, `CommBench.fromMsg_eq` — the helpers copy every field.
* `CommBench.Payload.ofBytes_objectRepr`, `CommBench.Payload.objectRepr_ofBytes` — payloads
  and object representations correspond one to one.
* `CommBench.wire_paths_agree` — both wires carry the same bytes and lose nothing.
-/

namespace CommBench

open Layout

/-- The bit pattern of a `double`. -/
abbrev DoubleBits : Type := BitVec 64

/-- `struct Payload` of `payload.hpp`. -/
structure Payload where
  ownSeq : UInt32
  peerLastSeq : UInt32
  ownSendTsNs : Int64
  peerRecvTsNs : Int64
  q : Vector DoubleBits 6
  qd : Vector DoubleBits 6
  tauExt : Vector DoubleBits 6
  padding : Vector UInt8 856

/-- `comm_benchmark::msg::Payload`, generated from `Payload.msg`. -/
structure PayloadMsg where
  ownSeq : UInt32
  peerLastSeq : UInt32
  ownSendTsNs : Int64
  peerRecvTsNs : Int64
  q : Vector DoubleBits 6
  qd : Vector DoubleBits 6
  tauExt : Vector DoubleBits 6
  padding : Vector UInt8 856

/-- `std::memcpy` of the first `n` bytes. -/
def memcpy {m : ℕ} (dst src : Vector UInt8 m) (n : ℕ) : Vector UInt8 m :=
  Vector.ofFn fun i => if (i : ℕ) < n then src[i] else dst[i]

/-- `to_msg`. -/
def toMsg (src : Payload) (dst : PayloadMsg) : PayloadMsg :=
  let dst := { dst with ownSeq := src.ownSeq }
  let dst := { dst with peerLastSeq := src.peerLastSeq }
  let dst := { dst with ownSendTsNs := src.ownSendTsNs }
  let dst := { dst with peerRecvTsNs := src.peerRecvTsNs }
  let dst := (List.finRange 6).foldl (fun dst i =>
    { dst with
      q := dst.q.set i src.q[i]
      qd := dst.qd.set i src.qd[i]
      tauExt := dst.tauExt.set i src.tauExt[i] }) dst
  { dst with padding := memcpy dst.padding src.padding 856 }

/-- `from_msg`. -/
def fromMsg (src : PayloadMsg) (dst : Payload) : Payload :=
  let dst := { dst with ownSeq := src.ownSeq }
  let dst := { dst with peerLastSeq := src.peerLastSeq }
  let dst := { dst with ownSendTsNs := src.ownSendTsNs }
  let dst := { dst with peerRecvTsNs := src.peerRecvTsNs }
  let dst := (List.finRange 6).foldl (fun dst i =>
    { dst with
      q := dst.q.set i src.q[i]
      qd := dst.qd.set i src.qd[i]
      tauExt := dst.tauExt.set i src.tauExt[i] }) dst
  { dst with padding := memcpy dst.padding src.padding 856 }

/-! ## The copy helpers -/

/-- Copying the whole array. -/
lemma memcpy_all {m : ℕ} (dst src : Vector UInt8 m) : memcpy dst src m = src := by
  apply Vector.ext
  intro i hi
  simp [memcpy]

/-- An element-wise copy loop over the indices in `l`. -/
def copyLoop {α : Type} {n : ℕ} (src dst : Vector α n) (l : List (Fin n)) : Vector α n :=
  l.foldl (fun (v : Vector α n) (i : Fin n) => v.set i src[i]) dst

/-- The copy loop changes the visited indices only.

**Proof sketch.** Induction over the indices, with a distinction of whether the index in question
comes again, is the first one, or is neither. -/
lemma getElem_copyLoop {α : Type} {n : ℕ} (src dst : Vector α n) (l : List (Fin n)) (j : Fin n) :
    (copyLoop src dst l)[j] = if j ∈ l then src[j] else dst[j] := by
  induction l generalizing dst with
  | nil => simp [copyLoop]
  | cons i l ih =>
    rw [show copyLoop src dst (i :: l) = copyLoop src (dst.set i src[i]) l from rfl, ih]
    by_cases hl : j ∈ l
    · simp [hl]
    · by_cases hij : j = i
      · subst hij
        simp
      · have hne : (i : ℕ) ≠ j := fun h => hij (Fin.ext h.symm)
        simp [hl, hij, hne]

/-- A copy loop over all indices copies the array. -/
lemma copyLoop_all {α : Type} {n : ℕ} (src dst : Vector α n) :
    copyLoop src dst (List.finRange n) = src := by
  apply Vector.ext
  intro i hi
  have h := getElem_copyLoop src dst (List.finRange n) ⟨i, hi⟩
  simpa using h

/-- The loop of `to_msg` is a copy loop on each of the three arrays.

**Proof sketch.** Induction over the indices. -/
lemma toMsg_loop (src : Payload) (dst : PayloadMsg) (l : List (Fin 6)) :
    l.foldl (fun dst i =>
      { dst with
        q := dst.q.set i src.q[i]
        qd := dst.qd.set i src.qd[i]
        tauExt := dst.tauExt.set i src.tauExt[i] }) dst =
      { dst with
        q := copyLoop src.q dst.q l
        qd := copyLoop src.qd dst.qd l
        tauExt := copyLoop src.tauExt dst.tauExt l } := by
  induction l generalizing dst with
  | nil => rfl
  | cons i l ih => exact ih _

/-- The loop of `from_msg` is a copy loop on each of the three arrays.

**Proof sketch.** Induction over the indices. -/
lemma fromMsg_loop (src : PayloadMsg) (dst : Payload) (l : List (Fin 6)) :
    l.foldl (fun dst i =>
      { dst with
        q := dst.q.set i src.q[i]
        qd := dst.qd.set i src.qd[i]
        tauExt := dst.tauExt.set i src.tauExt[i] }) dst =
      { dst with
        q := copyLoop src.q dst.q l
        qd := copyLoop src.qd dst.qd l
        tauExt := copyLoop src.tauExt dst.tauExt l } := by
  induction l generalizing dst with
  | nil => rfl
  | cons i l ih => exact ih _

/-- `to_msg` copies every field, whatever the message held before. -/
theorem toMsg_eq (src : Payload) (dst : PayloadMsg) :
    toMsg src dst = ⟨src.ownSeq, src.peerLastSeq, src.ownSendTsNs, src.peerRecvTsNs, src.q,
      src.qd, src.tauExt, src.padding⟩ := by
  simp only [toMsg, toMsg_loop, copyLoop_all, memcpy_all]

/-- `from_msg` copies every field, whatever the struct held before. -/
theorem fromMsg_eq (src : PayloadMsg) (dst : Payload) :
    fromMsg src dst = ⟨src.ownSeq, src.peerLastSeq, src.ownSendTsNs, src.peerRecvTsNs, src.q,
      src.qd, src.tauExt, src.padding⟩ := by
  simp only [fromMsg, fromMsg_loop, copyLoop_all, memcpy_all]

/-! ## The raw wire -/

/-- The members of the C struct in declaration order. -/
def payloadStruct : List FieldType :=
  [⟨4, 1⟩, ⟨4, 1⟩, ⟨8, 1⟩, ⟨8, 1⟩, ⟨8, 6⟩, ⟨8, 6⟩, ⟨8, 6⟩, ⟨1, 856⟩]

/-- `sizeof(Payload)`, pinned by the `static_assert`. -/
def sizeofPayload : ℕ := 1024

/-- An object representation of a `Payload`: `sizeof(Payload)` bytes. -/
def ObjectRepr : Type := { bytes : List UInt8 // bytes.length = sizeofPayload }

/-- The values of the members. -/
def Payload.values (p : Payload) : Values payloadStruct :=
  (#v[p.ownSeq.toBitVec], #v[p.peerLastSeq.toBitVec], #v[p.ownSendTsNs.toBitVec],
    #v[p.peerRecvTsNs.toBitVec], p.q, p.qd, p.tauExt, p.padding.map UInt8.toBitVec, ())

/-- The struct with the given values of its members. -/
def Payload.ofValues : Values payloadStruct → Payload
  | (ownSeq, peerLastSeq, ownSendTsNs, peerRecvTsNs, q, qd, tauExt, padding, _) =>
    { ownSeq := UInt32.ofBitVec ownSeq[0]
      peerLastSeq := UInt32.ofBitVec peerLastSeq[0]
      ownSendTsNs := Int64.ofBitVec ownSendTsNs[0]
      peerRecvTsNs := Int64.ofBitVec peerRecvTsNs[0]
      q := q
      qd := qd
      tauExt := tauExt
      padding := padding.map UInt8.ofBitVec }

/-- The declared offsets leave no gap between the members or behind the last one. -/
lemma gapless_payloadStruct :
    gapless payloadStruct 0 = true ∧ totalBytes payloadStruct = sizeofPayload ∧
      padding (maxAlign payloadStruct) sizeofPayload = 0 := by
  decide

/-- Without gaps the object representation consists of the members alone. -/
lemma objectBytes_payload (fill : ℕ → UInt8) (vs : Values payloadStruct) :
    objectBytes fill payloadStruct vs = structMembers fill payloadStruct 0 vs := by
  obtain ⟨hgap, htotal, hend⟩ := gapless_payloadStruct
  simp only [objectBytes, length_structMembers fill hgap, htotal, hend]
  exact List.append_nil _

/-- The object representation of a struct, as `RawUdpTransport::send` hands it to `sendto`;
`fill` stands for the bytes of gaps, which a C++ compiler leaves indeterminate. -/
def Payload.objectRepr (fill : ℕ → UInt8) (p : Payload) : ObjectRepr :=
  ⟨objectBytes fill payloadStruct p.values, by
    obtain ⟨hgap, htotal, -⟩ := gapless_payloadStruct
    rw [objectBytes_payload, length_structMembers fill hgap, htotal]⟩

/-- The struct that a buffer of `sizeof(Payload)` bytes represents. -/
def Payload.ofBytes (buf : ObjectRepr) : Payload :=
  Payload.ofValues (structDecode payloadStruct 0 buf.1)

/-- **The struct of its own values.** -/
lemma Payload.ofValues_values (p : Payload) : Payload.ofValues p.values = p := by
  have hpad : (p.padding.map UInt8.toBitVec).map UInt8.ofBitVec = p.padding := by
    apply Vector.ext
    intro i hi
    simp
  simp only [Payload.values, Payload.ofValues, hpad]
  rfl

/-- **The values of the struct that was built from them.**

**Proof sketch.** Each scalar field is a vector of one element, which is built again from its
element; the padding is a map and its inverse. -/
lemma Payload.values_ofValues (vs : Values payloadStruct) : (Payload.ofValues vs).values = vs := by
  have hone : ∀ {α : Type} (v : Vector α 1), #v[v[0]] = v := by
    intro α v
    apply Vector.ext
    intro i hi
    obtain rfl : i = 0 := by omega
    rfl
  obtain ⟨own, peer, sendTs, recvTs, q, qd, tauExt, pad, u⟩ := vs
  have hpad : (pad.map UInt8.ofBitVec).map UInt8.toBitVec = pad := by
    apply Vector.ext
    intro i hi
    simp
  have hown : #v[(UInt32.ofBitVec own[0]).toBitVec] = own := hone own
  have hpeer : #v[(UInt32.ofBitVec peer[0]).toBitVec] = peer := hone peer
  have hsend : #v[(Int64.ofBitVec sendTs[0]).toBitVec] = sendTs := hone sendTs
  have hrecv : #v[(Int64.ofBitVec recvTs[0]).toBitVec] = recvTs := hone recvTs
  simp only [Payload.values, Payload.ofValues, hown, hpeer, hsend, hrecv, hpad]
  rfl

/-- A payload sent as raw bytes is received as it was. -/
theorem Payload.ofBytes_objectRepr (fill : ℕ → UInt8) (p : Payload) :
    Payload.ofBytes (p.objectRepr fill) = p := by
  have h := structDecode_structMembers fill payloadStruct p.values [] []
  simp only [List.length_nil, List.nil_append, List.append_nil] at h
  simp only [Payload.ofBytes, Payload.objectRepr, objectBytes_payload]
  rw [h, Payload.ofValues_values]

/-- Any buffer of the right size is the object representation of the struct read from it. -/
theorem Payload.objectRepr_ofBytes (fill : ℕ → UInt8) (buf : ObjectRepr) :
    (Payload.ofBytes buf).objectRepr fill = buf := by
  obtain ⟨hgap, htotal, -⟩ := gapless_payloadStruct
  apply Subtype.ext
  simp only [Payload.objectRepr, Payload.ofBytes, Payload.values_ofValues, objectBytes_payload]
  rw [structMembers_structDecode fill hgap (by rw [htotal, Nat.zero_add]; exact buf.2),
    List.drop_zero]

/-! ## The ROS 2 wire -/

/-- The fields of `Payload.msg` in file order. -/
def payloadMsgFields : List FieldType :=
  [⟨4, 1⟩, ⟨4, 1⟩, ⟨8, 1⟩, ⟨8, 1⟩, ⟨8, 6⟩, ⟨8, 6⟩, ⟨8, 6⟩, ⟨1, 856⟩]

/-- The values of the fields. -/
def PayloadMsg.values (m : PayloadMsg) : Values payloadMsgFields :=
  (#v[m.ownSeq.toBitVec], #v[m.peerLastSeq.toBitVec], #v[m.ownSendTsNs.toBitVec],
    #v[m.peerRecvTsNs.toBitVec], m.q, m.qd, m.tauExt, m.padding.map UInt8.toBitVec, ())

/-- The message with the given values of its fields. -/
def PayloadMsg.ofValues : Values payloadMsgFields → PayloadMsg
  | (ownSeq, peerLastSeq, ownSendTsNs, peerRecvTsNs, q, qd, tauExt, padding, _) =>
    { ownSeq := UInt32.ofBitVec ownSeq[0]
      peerLastSeq := UInt32.ofBitVec peerLastSeq[0]
      ownSendTsNs := Int64.ofBitVec ownSendTsNs[0]
      peerRecvTsNs := Int64.ofBitVec peerRecvTsNs[0]
      q := q
      qd := qd
      tauExt := tauExt
      padding := padding.map UInt8.ofBitVec }

/-- The body of the little-endian CDR encoding of a message. -/
def PayloadMsg.cdrBytes (fill : ℕ → UInt8) (m : PayloadMsg) : List UInt8 :=
  cdrBody fill payloadMsgFields 0 m.values

/-- The message that a CDR body encodes. -/
def PayloadMsg.ofCdr (bytes : List UInt8) : PayloadMsg :=
  PayloadMsg.ofValues (cdrDecode payloadMsgFields 0 bytes)

/-- No field of the message is an empty array. -/
lemma count_pos_payloadMsgFields : ∀ f ∈ payloadMsgFields, 0 < f.count := by decide

/-- The CDR body of a message is the object representation of the struct with its fields. -/
lemma cdrBytes_toMsg (fill fill' : ℕ → UInt8) (p : Payload) (m : PayloadMsg) :
    (toMsg p m).cdrBytes fill = (p.objectRepr fill').1 := by
  obtain ⟨hgap, -, -⟩ := gapless_payloadStruct
  rw [PayloadMsg.cdrBytes, cdrBody_eq_structMembers fill count_pos_payloadMsgFields, toMsg_eq]
  simp only [Payload.objectRepr, objectBytes_payload]
  exact structMembers_fill_irrel fill fill' hgap p.values

/-- Reading a buffer as a CDR body and copying the message is reading it as a struct. -/
lemma fromMsg_ofCdr (buf : ObjectRepr) (p : Payload) :
    fromMsg (PayloadMsg.ofCdr buf.1) p = Payload.ofBytes buf := by
  rw [fromMsg_eq, PayloadMsg.ofCdr, cdrDecode_eq_structDecode count_pos_payloadMsgFields]
  rfl

/-- **The two wire paths agree and lose nothing.** The copy helpers are inverse to each other;
the CDR body of the copied message is byte for byte the 1024-byte object representation that
`raw_udp` sends; and decoding either gives the payload back.

**Proof sketch.** Both copies are the assignment of all fields, by `toMsg_eq` and `fromMsg_eq`. The
body of the message is the object representation, by `cdrBytes_toMsg`, and decoding undoes the
encoding of either. -/
theorem wire_paths_agree (fill fill' : ℕ → UInt8) (p p' : Payload) (m m' : PayloadMsg) :
    fromMsg (toMsg p m) p' = p ∧ toMsg (fromMsg m p) m' = m ∧
      (toMsg p m).cdrBytes fill = (p.objectRepr fill').1 ∧
      ((toMsg p m).cdrBytes fill).length = 1024 ∧
      fromMsg (PayloadMsg.ofCdr ((toMsg p m).cdrBytes fill)) p' = p ∧
      Payload.ofBytes (p.objectRepr fill') = p := by
  have hbytes := cdrBytes_toMsg fill fill' p m
  refine ⟨?_, ?_, hbytes, ?_, ?_, Payload.ofBytes_objectRepr fill' p⟩
  · rw [fromMsg_eq, toMsg_eq]
  · rw [toMsg_eq, fromMsg_eq]
  · rw [hbytes]
    exact (p.objectRepr fill').2
  · rw [hbytes, fromMsg_ofCdr, Payload.ofBytes_objectRepr]

end CommBench
