import CommBench.Wire.Payload

set_option relaxedAutoImplicit false
set_option autoImplicit false

/-!
# The receive loop of the raw UDP transport

`RawUdpTransport::recv_loop_` (`raw_udp.cpp`) reads every datagram into one buffer and hands
the buffer to the callback when `recvfrom` returns `sizeof(Payload)`. Since `recvfrom` cuts a
longer datagram to the size of the buffer, the returned count does not tell the two apart.

## Main definitions

* `CommBench.recvfrom` — `recvfrom` with flags `0` on Linux.
* `CommBench.recvLoop` — the loop, with the values of `running_` that it reads.
* `CommBench.whileRunning` — a history in which `running_` stays true.

## Main results

* `CommBench.recvLoop_whileRunning` — the payloads that reach the callback.
* `CommBench.recvLoop_eq_iff` — they are exactly the datagrams of 1024 bytes if and only if no
  datagram is longer.
-/

namespace CommBench

/-- What happens to the socket while `recvfrom` waits: a datagram comes in, or an error. -/
inductive RecvEvent
  | datagram (bytes : List UInt8)
  | error

/-- `recvfrom(fd, buf, sizeof(buf), 0, …)`: the returned count and the buffer afterwards. At
most the buffer size is copied, and the excess of a longer datagram is discarded. -/
def recvfrom (buf : ObjectRepr) : RecvEvent → ℤ × ObjectRepr
  | .datagram bytes =>
    (min bytes.length sizeofPayload,
      ⟨bytes.take sizeofPayload ++ buf.1.drop bytes.length, by
        have := buf.2
        simp only [List.length_append, List.length_take, List.length_drop]
        omega⟩)
  | .error => (-1, buf)

/-- One pass through the loop: `running_` at the loop head, the outcome of `recvfrom`,
`running_` when it is tested again after a dropped datagram, and the clock reading of the call
of the callback. -/
structure RecvStep where
  running : Bool
  event : RecvEvent
  runningAfter : Bool
  nowNs : ℤ

/-- `RawUdpTransport::recv_loop_`: the calls of the callback, which is registered when `cb` is
true, for the buffer `buf` that every pass overwrites. -/
def recvLoop (cb : Bool) (buf : ObjectRepr) : List RecvStep → List (Payload × ℤ)
  | [] => []
  | st :: rest =>
    if st.running then
      let received := recvfrom buf st.event
      if received.1 ≠ sizeofPayload then
        if !st.runningAfter then [] else recvLoop cb received.2 rest
      else
        (if cb then [(Payload.ofBytes received.2, st.nowNs)] else []) ++
          recvLoop cb received.2 rest
    else []

/-- A history of the socket during which `running_` is true. -/
def whileRunning (evs : List (RecvEvent × ℤ)) : List RecvStep :=
  evs.map fun ev => ⟨true, ev.1, true, ev.2⟩

/-- The datagrams of a history. -/
def datagrams (evs : List (RecvEvent × ℤ)) : List (List UInt8) :=
  evs.filterMap fun ev =>
    match ev.1 with
    | .datagram bytes => some bytes
    | .error => none

/-- The bytes of the payloads handed to the callback. -/
def deliveredBytes (calls : List (Payload × ℤ)) : List (List UInt8) :=
  calls.map fun call => (call.1.objectRepr fun _ => 0).1

/-! ## What reaches the callback -/

/-- A datagram of at least the buffer size fills the buffer with its first bytes. -/
lemma recvfrom_datagram_of_le {bytes : List UInt8} (h : sizeofPayload ≤ bytes.length)
    (buf : ObjectRepr) :
    (recvfrom buf (.datagram bytes)).1 = sizeofPayload ∧
      (recvfrom buf (.datagram bytes)).2.1 = bytes.take sizeofPayload := by
  constructor
  · simp only [recvfrom]
    omega
  · have hdrop : buf.1.drop bytes.length = [] :=
      List.drop_eq_nil_of_le (by rw [buf.2]; exact h)
    simp only [recvfrom, hdrop, List.append_nil]

/-- **What the loop delivers**: the datagrams of at least `sizeof(Payload)` bytes, in order,
each cut to that size; the bytes that a dropped datagram left in the buffer never show.

**Proof sketch.** Induction on the history, for any buffer: a delivered datagram overwrites the
whole buffer, so nothing depends on what the buffer held. -/
theorem recvLoop_whileRunning (buf : ObjectRepr) (evs : List (RecvEvent × ℤ)) :
    deliveredBytes (recvLoop true buf (whileRunning evs)) =
      ((datagrams evs).filter fun d => sizeofPayload ≤ d.length).map (List.take sizeofPayload) := by
  induction evs generalizing buf with
  | nil => rfl
  | cons ev evs ih =>
    obtain ⟨ev, nowNs⟩ := ev
    cases ev with
    | error => exact ih buf
    | datagram bytes =>
      simp only [whileRunning, datagrams, List.map_cons, recvLoop, if_true, ne_eq,
        Bool.not_true, Bool.false_eq_true, if_false, ite_not, List.filterMap_cons]
      by_cases hle : sizeofPayload ≤ bytes.length
      · obtain ⟨hcount, hbuf⟩ := recvfrom_datagram_of_le hle buf
        rw [if_pos hcount, List.filter_cons_of_pos (by simpa using hle), List.map_cons]
        simp only [deliveredBytes, List.map_cons, List.singleton_append,
          Payload.objectRepr_ofBytes, hbuf]
        exact congrArg _ (ih _)
      · have hcount : (recvfrom buf (.datagram bytes)).1 ≠ sizeofPayload := by
          simp only [recvfrom]
          omega
        rw [if_neg hcount, List.filter_cons_of_neg (by simpa using hle)]
        exact ih _

/-- Two filters of which one is weaker agree on a list only if they agree on its members. -/
lemma mem_of_filter_eq {α : Type} {p q : α → Bool} {l : List α} (h : l.filter p = l.filter q)
    {x : α} (hx : x ∈ l) (hp : p x = true) : q x = true := by
  have hmem : x ∈ l.filter q := h ▸ List.mem_filter.mpr ⟨hx, hp⟩
  exact (List.mem_filter.mp hmem).2

/-- The payloads handed to the callback while `running_` is true are exactly the datagrams of
`sizeof(Payload)` bytes, in order and unchanged, if and only if no datagram is longer.

**Proof sketch.** The loop hands over every datagram of at least `sizeof(Payload)` bytes, cut to
that length. If the result equals the exact datagrams, then the two filters have equally many
elements and are the same list, so that none is longer. Conversely, without a longer datagram the
filters agree and nothing is cut. -/
theorem recvLoop_eq_iff (buf : ObjectRepr) (evs : List (RecvEvent × ℤ)) :
    deliveredBytes (recvLoop true buf (whileRunning evs)) =
        (datagrams evs).filter (fun d => d.length = sizeofPayload) ↔
      ∀ d ∈ datagrams evs, d.length ≤ sizeofPayload := by
  rw [recvLoop_whileRunning]
  constructor
  · intro h d hd
    by_contra hlong
    -- equal lengths make the sublist of exact datagrams all of the delivered ones
    have hsub : ((datagrams evs).filter fun d => d.length = sizeofPayload).Sublist
        ((datagrams evs).filter fun d => sizeofPayload ≤ d.length) :=
      List.monotone_filter_right _ fun x hx => by
        simp only [decide_eq_true_eq] at hx ⊢
        omega
    have hlen := congrArg List.length h
    rw [List.length_map] at hlen
    have heq := hsub.eq_of_length hlen.symm
    have hexact := mem_of_filter_eq heq.symm hd (by simpa using Nat.le_of_not_le hlong)
    simp only [decide_eq_true_eq] at hexact
    omega
  · intro h
    have hfilter : ((datagrams evs).filter fun d => sizeofPayload ≤ d.length) =
        (datagrams evs).filter fun d => d.length = sizeofPayload := by
      refine List.filter_congr fun d hd => ?_
      have := h d hd
      simp only [decide_eq_decide]
      omega
    rw [hfilter]
    conv_rhs => rw [← List.map_id ((datagrams evs).filter fun d => d.length = sizeofPayload)]
    refine List.map_congr_left fun d hd => ?_
    have hd' : d.length = sizeofPayload := by simpa using (List.mem_filter.mp hd).2
    rw [id, List.take_of_length_le hd'.le]

/-- A buffer of zeros. -/
def zeroBuf : ObjectRepr := ⟨List.replicate sizeofPayload 0, List.length_replicate⟩

/-- A single foreign datagram of 1025 bytes is handed to the callback as a payload, although no
datagram of 1024 bytes was received.

**Proof sketch.** The one datagram passes the test of the size and is cut to 1024 bytes; the filter
of the exact ones drops it. -/
theorem recvLoop_overlong :
    deliveredBytes (recvLoop true zeroBuf
        (whileRunning [(.datagram (List.replicate 1025 7), 0)])) = [List.replicate 1024 7] ∧
      (datagrams [(.datagram (List.replicate 1025 7), 0)]).filter
        (fun d => d.length = sizeofPayload) = [] := by
  have hone : datagrams [(.datagram (List.replicate 1025 7), 0)] = [List.replicate 1025 7] := rfl
  constructor
  · rw [recvLoop_whileRunning, hone, List.filter_cons_of_pos (by
      rw [List.length_replicate]
      decide)]
    simp only [List.filter_nil, List.map_cons, List.map_nil, List.take_replicate]
    rfl
  · rw [hone, List.filter_cons_of_neg (by
      rw [List.length_replicate]
      decide), List.filter_nil]

end CommBench
