/-
# The arrays behind the lists

In the model the payload of a slot and the ready buffer are lists; in the source they are
arrays of a fixed size, and the bytes get there by `memcpy` and `memmove`.  Here the arrays
come back.  `TcpCopy.perform` makes one recorded copy, with both of its accesses checked,
and `TcpArrays.copied` makes the copies of a call one after the other.  Arrays hold a
connection if each list of it is what its array begins with.

Then the lists are what the arrays hold, in every run (`arrays_run`): no copy leaves its
arrays, the ready buffer and the used slots begin with the bytes that the model has for
them, and what `tcp_connection_read` returns is in the buffer of its caller.

What lies behind those bytes is left open, and so is a slot that is free.  The source
clears a slot with `memset` when it empties it; no copy reads it before another one has
filled it.
-/

import Netstack.Library.Memory
import Netstack.TcpConnection.Bounds

namespace Netstack

open Transition (run)

/-! ### Making the copies -/

/-- What the arrays contain, to their last byte. -/
abbrev TcpArrays : Type := TcpArray → List UInt8

/-- One `memcpy` or `memmove`: the source is read before the destination is written, which
makes no difference where the two do not overlap. -/
def TcpCopy.perform (copy : TcpCopy) (arrays : TcpArrays) : Checked TcpArrays := do
  let bytes ← readRange (arrays copy.source) copy.sourceOffset copy.length
  let array ← writeRange (arrays copy.destination) copy.destinationOffset bytes
  return Function.update arrays copy.destination array

/-- The copies of a call, one after the other. -/
def TcpArrays.copied (arrays : TcpArrays) : List TcpCopy → Checked TcpArrays
  | [] => .ok arrays
  | copy :: rest => do
    let arrays ← copy.perform arrays
    TcpArrays.copied arrays rest

/-- The copies of two parts of a call are made one after the other, so that each function of the
source is followed on its own. -/
theorem TcpArrays.copied_append (arrays : TcpArrays) (first second : List TcpCopy) :
    arrays.copied (first ++ second) = arrays.copied first >>= fun after => after.copied second := by
  induction first generalizing arrays with
  | nil => rfl
  | cons copy rest ih =>
      rw [List.cons_append, TcpArrays.copied, TcpArrays.copied]
      cases copy.perform arrays with
      | error fault => rfl
      | ok after => exact ih after

/-- A copy of bytes that the source begins with to the place behind those that the
destination begins with: the destination then begins with both. -/
theorem TcpCopy.perform_of_prefix (copy : TcpCopy) {arrays : TcpArrays} {held kept : List UInt8}
    (hsource : held <+: arrays copy.source)
    (hread : copy.sourceOffset + copy.length ≤ held.length)
    (hkept : kept <+: arrays copy.destination) (hoffset : copy.destinationOffset = kept.length)
    (hroom : kept.length + copy.length ≤ (arrays copy.destination).length) :
    ∃ array, copy.perform arrays = .ok (Function.update arrays copy.destination array) ∧
      array.length = (arrays copy.destination).length ∧
      kept ++ (held.drop copy.sourceOffset).take copy.length <+: array := by
  obtain ⟨behind, hbehind⟩ := hsource
  obtain ⟨rest, hrest⟩ := hkept
  have hlen : ((held.drop copy.sourceOffset).take copy.length).length = copy.length := by
    rw [List.length_take, List.length_drop]
    omega
  have hread' : readRange (arrays copy.source) copy.sourceOffset copy.length =
      .ok ((held.drop copy.sourceOffset).take copy.length) := by
    rw [← hbehind]
    exact readRange_append_left hread
  rw [← hrest, List.length_append] at hroom
  have hwrite : writeRange (arrays copy.destination) copy.destinationOffset
      ((held.drop copy.sourceOffset).take copy.length) =
      .ok (kept ++ (held.drop copy.sourceOffset).take copy.length ++ rest.drop copy.length) := by
    rw [← hrest, writeRange_append hoffset.symm (by omega), hlen]
  refine ⟨kept ++ (held.drop copy.sourceOffset).take copy.length ++ rest.drop copy.length,
    ?_, ?_, List.prefix_append _ _⟩
  · rw [TcpCopy.perform, hread', ok_bind, hwrite]
    rfl
  · rw [← hrest]
    simp only [List.length_append, List.length_drop, hlen]
    omega

/-! ### Arrays that hold a connection -/

/-- The arrays have the sizes of the source, and each list of the connection is what its
array begins with. -/
structure TcpArrays.Holds (arrays : TcpArrays) (connection : TcpConnection) : Prop where
  sized : ∀ array : TcpArray, (arrays array).length = array.capacity
  ready : connection.receiveReady <+: arrays .receiveReady
  slots : ∀ i, (connection.reassembly i).used = true →
    (connection.reassembly i).payload <+: arrays (.slotPayload i)

/-- A connection with the same ready bytes and no other used slots is held as well: only
the two lists matter, and emptying a slot writes nothing. -/
theorem TcpArrays.Holds.mono {arrays : TcpArrays} {connection next : TcpConnection}
    (h : arrays.Holds connection) (hready : next.receiveReady = connection.receiveReady)
    (hslots : ∀ i, (next.reassembly i).used = true →
      next.reassembly i = connection.reassembly i) : arrays.Holds next := by
  refine ⟨h.sized, hready ▸ h.ready, fun i hused => ?_⟩
  have heq := hslots i hused
  rw [heq] at hused ⊢
  exact h.slots i hused

/-- Emptying a slot asks less of the arrays: its bytes are not looked at any more. -/
theorem TcpArrays.Holds.remove {arrays : TcpArrays} {connection : TcpConnection}
    (h : arrays.Holds connection) (i : SlotIndex) :
    arrays.Holds (removeReassemblySlot connection i) := by
  by_cases hfree : (connection.reassembly i).used = true
  · refine h.mono (removeReassemblySlot_receiveReady connection i) fun j hused => ?_
    rw [removeReassemblySlot_of_used hfree] at hused ⊢
    by_cases hj : j = i
    · subst hj
      simp [TcpReassemblySlot.zero] at hused
    · simp [hj]
  · rwa [removeReassemblySlot, if_pos (by simpa using hfree)]

/-- One array is written, and they all keep their sizes. -/
theorem TcpArrays.sized_update {arrays : TcpArrays} {written : TcpArray} {bytes : List UInt8}
    (h : ∀ array : TcpArray, (arrays array).length = array.capacity)
    (hsize : bytes.length = written.capacity) (array : TcpArray) :
    (Function.update arrays written bytes array).length = array.capacity := by
  by_cases hwritten : array = written
  · rw [hwritten, Function.update_self, hsize]
  · rw [Function.update_of_ne hwritten, h]

/-- New bytes at the end of the ready buffer leave the slots alone. -/
theorem TcpArrays.Holds.update_ready {arrays : TcpArrays} {connection : TcpConnection}
    (h : arrays.Holds connection) {array data : List UInt8}
    (hsize : array.length = (arrays .receiveReady).length) (hdata : data <+: array) :
    TcpArrays.Holds (Function.update arrays .receiveReady array)
      { connection with receiveReady := data } := by
  refine ⟨TcpArrays.sized_update h.sized (hsize.trans (h.sized _)), ?_, fun i hused => ?_⟩
  · rwa [Function.update_self]
  · rw [Function.update_of_ne (by simp)]
    exact h.slots i hused

/-- The copies carry arrays that hold one connection over to arrays that hold the other. -/
def Carries (copies : List TcpCopy) (connection next : TcpConnection) : Prop :=
  ∀ arrays : TcpArrays, arrays.Holds connection →
    ∃ after, arrays.copied copies = .ok after ∧ after.Holds next

/-- Two parts of a call, one after the other. -/
theorem Carries.append {first second : List TcpCopy} {connection mid next : TcpConnection}
    (h : Carries first connection mid) (h' : Carries second mid next) :
    Carries (first ++ second) connection next := by
  intro arrays harrays
  obtain ⟨between, hfirst, hbetween⟩ := h arrays harrays
  obtain ⟨after, hsecond, hafter⟩ := h' between hbetween
  exact ⟨after, by rw [TcpArrays.copied_append, hfirst, ok_bind, hsecond], hafter⟩

/-- Where nothing is copied the connection may only lose slots. -/
theorem Carries.nil {connection next : TcpConnection}
    (h : ∀ arrays : TcpArrays, arrays.Holds connection → arrays.Holds next) :
    Carries [] connection next :=
  fun arrays harrays => ⟨arrays, rfl, h arrays harrays⟩

/-! ### The functions of the receive path -/

/-- `ready_append` that fails makes no copy: it checks for room before the `memcpy`. -/
theorem readyAppendCopies_of_none {connection : TcpConnection} {source : TcpArray}
    {payload : List UInt8} {offset : ℕ} (h : readyAppend connection (payload.drop offset) = none) :
    readyAppendCopies connection source payload.length offset (payload.length - offset) = [] := by
  unfold readyAppendCopies
  unfold readyAppend at h
  rw [List.length_drop] at h
  split_ifs at h with hzero hfull hroom
  · rw [if_neg hzero, if_pos hfull]
  · rw [if_neg hzero, if_neg hfull, if_pos hroom]

/-- **What `ready_append` appends is what its copy moves**, from an array that begins with
the payload. -/
theorem readyAppend_copied {connection next : TcpConnection} {source : TcpArray}
    {payload : List UInt8} {offset : ℕ} {arrays : TcpArrays} (h : arrays.Holds connection)
    (hsource : payload <+: arrays source) (hoffset : offset ≤ payload.length)
    (happend : readyAppend connection (payload.drop offset) = some next) :
    ∃ after, arrays.copied (readyAppendCopies connection source payload.length offset
      (payload.length - offset)) = .ok after ∧ after.Holds next := by
  unfold readyAppend at happend
  unfold readyAppendCopies
  rw [List.length_drop] at happend
  split_ifs at happend ⊢ with hzero hfull hroom
  · obtain rfl := Option.some.inj happend
    exact ⟨arrays, rfl, h⟩
  · obtain rfl := Option.some.inj happend
    have hcapacity : (arrays .receiveReady).length = tcpReceiveReadyCapacity :=
      h.sized .receiveReady
    obtain ⟨array, hperform, hsize, hprefix⟩ := TcpCopy.perform_of_prefix
      ⟨source, payload.length, offset, .receiveReady, connection.receiveReady.length,
        payload.length - offset⟩ hsource (by dsimp only; omega) h.ready rfl
      (by dsimp only; omega)
    refine ⟨_, by rw [TcpArrays.copied, hperform]; rfl, h.update_ready hsize ?_⟩
    rwa [List.take_of_length_le (by rw [List.length_drop])] at hprefix

/-- **The new slot holds the payload**: `buffer_future_payload` fills a free slot from its
first byte on. -/
theorem bufferFuturePayload_copied {connection next : TcpConnection} {sequenceNumber : BitVec 32}
    {payload : List UInt8} {arrays : TcpArrays} (h : arrays.Holds connection)
    (hpayload : payload <+: arrays .segmentPayload)
    (hbuffer : bufferFuturePayload connection sequenceNumber payload = some next) :
    ∃ after, arrays.copied (bufferFuturePayloadCopies connection sequenceNumber payload) =
      .ok after ∧ after.Holds next := by
  unfold bufferFuturePayload at hbuffer
  unfold bufferFuturePayloadCopies
  split_ifs at hbuffer ⊢ with hzero hlong hbuffered
  · obtain rfl := Option.some.inj hbuffer
    exact ⟨arrays, rfl, h⟩
  · cases hfree : findFreeReassemblySlot connection with
    | none => simp [hfree] at hbuffer
    | some slotIndex =>
        simp only [hfree] at hbuffer
        obtain rfl := Option.some.inj hbuffer
        have hcapacity : (arrays (.slotPayload slotIndex)).length = tcpReassemblySlotDataLen :=
          h.sized (.slotPayload slotIndex)
        obtain ⟨array, hperform, hsize, hprefix⟩ := TcpCopy.perform_of_prefix
          ⟨.segmentPayload, payload.length, 0, .slotPayload slotIndex, 0, payload.length⟩ hpayload
          (Nat.zero_add _).le List.nil_prefix rfl (by dsimp only [List.length_nil]; omega)
        refine ⟨_, by rw [TcpArrays.copied, hperform]; rfl,
          TcpArrays.sized_update h.sized (hsize.trans (h.sized _)), ?_, fun i hused => ?_⟩
        · rw [Function.update_of_ne (by simp)]
          exact h.ready
        · by_cases hi : i = slotIndex
          · subst hi
            simpa using hprefix
          · rw [Function.update_of_ne (by simpa using hi)]
            simp only [Function.update_of_ne hi] at hused ⊢
            exact h.slots i hused

/-- The loop body of `promote_reassembly` that moves on delivers what its copy moves from
the slot, and empties the slot. -/
theorem promoteSlot_carries {connection next : TcpConnection} {i : SlotIndex} {moved : Bool}
    (h : promoteSlot connection i = .ok (next, moved)) :
    Carries (promoteSlotCopies connection i) connection next := by
  unfold promoteSlot at h
  unfold promoteSlotCopies
  dsimp only at h ⊢
  split_ifs at h ⊢ with hfree hold hfuture hover
  · obtain ⟨rfl, -⟩ := Prod.mk.inj (Except.ok.inj h)
    exact .nil fun _ harrays => harrays
  · obtain ⟨rfl, -⟩ := Prod.mk.inj (Except.ok.inj h)
    exact .nil fun _ harrays => harrays.remove i
  · obtain ⟨rfl, -⟩ := Prod.mk.inj (Except.ok.inj h)
    exact .nil fun _ harrays => harrays
  · obtain ⟨rfl, -⟩ := Prod.mk.inj (Except.ok.inj h)
    exact .nil fun _ harrays => harrays
  · intro arrays harrays
    have hused : (connection.reassembly i).used = true := by simpa using hfree
    split at h
    · cases h
    · rename_i delivered happend
      obtain ⟨rfl, -⟩ := Prod.mk.inj (Except.ok.inj h)
      obtain ⟨after, hcopied, hafter⟩ :=
        readyAppend_copied harrays (harrays.slots i hused) (by omega) happend
      refine ⟨after, hcopied, ?_⟩
      apply TcpArrays.Holds.remove
      exact hafter.mono rfl fun _ _ => rfl

/-- The loop body that fails has copied nothing. -/
theorem promoteSlotCopies_of_error {connection last : TcpConnection} {i : SlotIndex}
    (h : promoteSlot connection i = .error last) :
    last = connection ∧ promoteSlotCopies connection i = [] := by
  unfold promoteSlot at h
  unfold promoteSlotCopies
  dsimp only at h ⊢
  split_ifs at h ⊢ with hfree hold hfuture hover
  split at h
  · rename_i happend
    exact ⟨(Except.error.inj h).symm, readyAppendCopies_of_none happend⟩
  · cases h

/-- A scan, whether it comes to its end or fails on the way: the induction is on the slots
still to come. -/
theorem promoteScan_carries {indices : List SlotIndex} {connection last : TcpConnection}
    {progress : Bool} (h : promoteScan indices connection progress = .error last ∨
      ∃ moved, promoteScan indices connection progress = .ok (last, moved)) :
    Carries (promoteScanCopies indices connection) connection last := by
  induction indices generalizing connection progress with
  | nil =>
      rcases h with h | ⟨moved, h⟩
      · cases h
      · obtain ⟨rfl, -⟩ := Prod.mk.inj (Except.ok.inj h)
        exact .nil fun _ harrays => harrays
  | cons i rest ih =>
      rw [promoteScanCopies]
      cases hslot : promoteSlot connection i with
      | error stopped =>
          obtain ⟨rfl, hnone⟩ := promoteSlotCopies_of_error hslot
          rcases h with h | ⟨moved, h⟩
          · rw [promoteScan, hslot] at h
            obtain rfl := Except.error.inj h
            rw [hnone]
            exact .nil fun _ harrays => harrays
          · rw [promoteScan, hslot] at h
            cases h
      | ok after =>
          obtain ⟨next, moved⟩ := after
          refine (promoteSlot_carries hslot).append ?_
          refine @ih next (progress || moved) ?_
          simpa only [promoteScan, hslot] using h

/-- The scans of `promote_reassembly`, one after the other. -/
theorem promoteWhile_carries {fuel : ℕ} {connection last : TcpConnection}
    (h : promoteWhile fuel connection = .error last ∨ promoteWhile fuel connection = .ok last) :
    Carries (promoteWhileCopies fuel connection) connection last := by
  induction fuel generalizing connection with
  | zero =>
      rcases h with h | h
      · cases h
      · obtain rfl := Except.ok.inj h
        exact .nil fun _ harrays => harrays
  | succ fuel ih =>
      rw [promoteWhileCopies]
      rw [promoteWhile] at h
      cases hscan : promoteScan (List.finRange tcpReassemblySlotCount) connection false with
      | error stopped =>
          simp only [hscan] at h ⊢
          rw [List.append_nil]
          have heq : stopped = last := by simpa using h
          exact promoteScan_carries (.inl (heq ▸ hscan))
      | ok after =>
          obtain ⟨next, moved⟩ := after
          have hfirst : Carries (promoteScanCopies (List.finRange tcpReassemblySlotCount)
              connection) connection next := promoteScan_carries (.inr ⟨moved, hscan⟩)
          cases moved with
          | false =>
              simp only [hscan] at h ⊢
              rw [List.append_nil]
              have heq : next = last := by simpa using h
              exact heq ▸ hfirst
          | true =>
              simp only [hscan] at h ⊢
              exact hfirst.append (ih h)

/-- A FIN consumes a sequence number and no bytes. -/
theorem TcpArrays.Holds.consumePendingFin {arrays : TcpArrays} {connection : TcpConnection}
    (h : arrays.Holds connection) : arrays.Holds (consumePendingFin connection) := by
  rw [consumePendingFin_eq]
  split_ifs
  · exact h.mono rfl fun _ _ => rfl
  · exact h

/-- Processing a FIN moves numbers only. -/
theorem TcpArrays.Holds.processFin {arrays : TcpArrays} {connection : TcpConnection}
    (h : arrays.Holds connection) (segment : TcpSegment) :
    arrays.Holds (processFin connection segment) := by
  unfold Netstack.processFin
  dsimp only
  split_ifs <;> exact h.mono rfl fun _ _ => rfl

/-- The closing checks assign the state only. -/
theorem TcpArrays.Holds.finishClose {arrays : TcpArrays} {connection : TcpConnection}
    (h : arrays.Holds connection) : arrays.Holds (finishClose connection) := by
  unfold Netstack.finishClose
  split_ifs <;> exact h.mono rfl fun _ _ => rfl

/-- `promote_reassembly`, whether it comes to its end or stops for want of room. -/
theorem promoteReassembly_carries (connection : TcpConnection) :
    Carries (promoteReassemblyCopies connection) connection (promoteReassembly connection).2 := by
  unfold promoteReassemblyCopies promoteReassembly
  cases hloop : promoteLoop connection with
  | error last => exact promoteWhile_carries (.inl hloop)
  | ok last =>
      intro arrays harrays
      obtain ⟨after, hcopied, hafter⟩ := promoteWhile_carries (.inr hloop) arrays harrays
      exact ⟨after, hcopied, hafter.consumePendingFin⟩

/-- `process_payload`: the payload goes into a slot, or behind the ready bytes with whatever
the slots held behind it. -/
theorem processPayload_copied {connection : TcpConnection} {segment : TcpSegment}
    {arrays : TcpArrays} (h : arrays.Holds connection)
    (hpayload : segment.payload <+: arrays .segmentPayload) :
    ∃ after, arrays.copied (processPayloadCopies connection segment) = .ok after ∧
      after.Holds (processPayload connection segment).2 := by
  unfold processPayloadCopies processPayload
  dsimp only
  split_ifs with hempty hold hfuture hover
  · exact ⟨arrays, rfl, h⟩
  · exact ⟨arrays, rfl, h⟩
  · cases hbuffer : bufferFuturePayload connection segment.sequenceNumber segment.payload with
    | none =>
        refine ⟨arrays, ?_, h⟩
        unfold bufferFuturePayload at hbuffer
        unfold bufferFuturePayloadCopies
        split_ifs at hbuffer ⊢ with hlong hbuffered
        · rfl
        · cases hfree : findFreeReassemblySlot connection with
          | none => rfl
          | some i => simp [hfree] at hbuffer
    | some next => exact bufferFuturePayload_copied h hpayload hbuffer
  · exact ⟨arrays, rfl, h⟩
  · cases happend : readyAppend connection (segment.payload.drop
        (connection.receiveNext - segment.sequenceNumber).toNat) with
    | none =>
        rw [readyAppendCopies_of_none happend]
        exact ⟨arrays, rfl, h⟩
    | some next =>
        obtain ⟨between, hfirst, hbetween⟩ :=
          readyAppend_copied h hpayload (Nat.le_of_not_lt hover) happend
        obtain ⟨after, hsecond, hafter⟩ :=
          promoteReassembly_carries { next with
            receiveNext := next.receiveNext + BitVec.ofNat 32 (segment.payload.length -
              (connection.receiveNext - segment.sequenceNumber).toNat) }
            between (hbetween.mono rfl fun _ _ => rfl)
        exact ⟨after, by rw [TcpArrays.copied_append, hfirst, ok_bind]; exact hsecond, hafter⟩

/-! ### The calls -/

/-- What the caller passes along with a call: the bytes of the segment are in the array
`segment->payload`. -/
def TcpArrays.Passes (arrays : TcpArrays) (op : TcpOp) : Prop :=
  ∀ segment, op = .onSegment segment → segment.payload <+: arrays .segmentPayload

/-- `tcp_connection_on_segment`: a reset throws all bytes away, and everything else that
touches them is `process_payload`. -/
theorem onSegment_copied {connection : TcpConnection} {segment : TcpSegment}
    {arrays : TcpArrays} (h : arrays.Holds connection)
    (hpayload : segment.payload <+: arrays .segmentPayload) :
    ∃ after, arrays.copied (tcpConnectionOnSegmentCopies connection segment) = .ok after ∧
      after.Holds (tcpConnectionOnSegment connection segment).2 := by
  have hack : arrays.Holds (connection.afterAck segment) := by
    have hside := connection.afterAck_receiveSide segment
    have hslots : (connection.afterAck segment).reassembly = connection.reassembly :=
      congrArg TcpReceiveSide.reassembly hside
    exact h.mono (by simp) fun i _ => by rw [hslots]
  unfold tcpConnectionOnSegmentCopies tcpConnectionOnSegment
  dsimp only
  split_ifs with hports hrst hsyn hstate hresult
  · exact ⟨arrays, rfl, h⟩
  · exact ⟨arrays, rfl, h.sized, List.nil_prefix, fun i hused => absurd hused Bool.false_ne_true⟩
  · refine ⟨arrays, rfl, ?_⟩
    unfold processHandshake
    split_ifs <;> exact hack.mono rfl fun _ _ => rfl
  · exact ⟨arrays, rfl, hack⟩
  · exact processPayload_copied hack hpayload
  · obtain ⟨after, hcopied, hafter⟩ := processPayload_copied hack hpayload
    exact ⟨after, hcopied, (hafter.processFin segment).consumePendingFin.finishClose⟩

/-- `tcp_connection_read`: the caller gets the first ready bytes, and the `memmove` takes
the others to the front. -/
theorem read_copied {connection : TcpConnection} {arrays : TcpArrays}
    (h : arrays.Holds connection) (bufferLen : ℕ) :
    ∃ after, arrays.copied (tcpConnectionReadCopies connection bufferLen) = .ok after ∧
      after.Holds (tcpConnectionRead connection bufferLen).2 ∧
      (tcpConnectionRead connection bufferLen).1 <+: after (.buffer bufferLen) := by
  have hbuffer : (arrays (.buffer bufferLen)).length = bufferLen := h.sized (.buffer bufferLen)
  have hcapacity : (arrays .receiveReady).length = tcpReceiveReadyCapacity := h.sized .receiveReady
  have hfits := h.ready.length_le
  unfold tcpConnectionReadCopies tcpConnectionRead
  by_cases hnone : bufferLen = 0 ∨ connection.receiveReady.length = 0
  · rw [if_pos hnone, if_pos hnone]
    exact ⟨arrays, rfl, h, List.nil_prefix⟩
  rw [if_neg hnone, if_neg hnone]
  dsimp only
  generalize hcopyLen : (if connection.receiveReady.length > bufferLen then bufferLen
    else connection.receiveReady.length) = copyLen
  have hle : copyLen ≤ bufferLen ∧ copyLen ≤ connection.receiveReady.length := by
    split_ifs at hcopyLen <;> omega
  -- the bytes for the caller
  obtain ⟨array, hperform, hsize, hprefix⟩ := TcpCopy.perform_of_prefix
    ⟨.receiveReady, connection.receiveReady.length, 0, .buffer bufferLen, 0, copyLen⟩ h.ready
    (by dsimp only; omega) List.nil_prefix rfl (by dsimp only [List.length_nil]; omega)
  have hgiven : connection.receiveReady.take copyLen <+: array := by simpa using hprefix
  have hbetween : TcpArrays.Holds (Function.update arrays (.buffer bufferLen) array) connection := by
    refine ⟨TcpArrays.sized_update h.sized (hsize.trans (h.sized _)), ?_, fun i hused => ?_⟩
    · rw [Function.update_of_ne (by simp)]
      exact h.ready
    · rw [Function.update_of_ne (by simp)]
      exact h.slots i hused
  by_cases hremaining : connection.receiveReady.length - copyLen > 0
  · rw [if_pos hremaining]
    obtain ⟨moved, hmove, hmovedSize, hmoved⟩ := TcpCopy.perform_of_prefix
      ⟨.receiveReady, connection.receiveReady.length, copyLen, .receiveReady, 0,
        connection.receiveReady.length - copyLen⟩ hbetween.ready (by dsimp only; omega)
      List.nil_prefix rfl (by
        rw [hbetween.sized]
        show 0 + (connection.receiveReady.length - copyLen) ≤ tcpReceiveReadyCapacity
        omega)
    refine ⟨_, by rw [TcpArrays.copied, hperform, ok_bind, TcpArrays.copied, hmove]; rfl,
      hbetween.update_ready hmovedSize ?_, ?_⟩
    · simpa [List.take_of_length_le] using hmoved
    · rw [Function.update_of_ne (by simp), Function.update_self]
      exact hgiven
  · rw [if_neg hremaining]
    refine ⟨_, by rw [TcpArrays.copied, hperform]; rfl, ?_, ?_⟩
    · have hall : connection.receiveReady.drop copyLen = [] := by
        rw [List.drop_eq_nil_iff]
        omega
      exact ⟨hbetween.sized, hall ▸ List.nil_prefix, hbetween.slots⟩
    · rw [Function.update_self]
      exact hgiven

/-- **One call keeps the arrays and the lists together.** -/
theorem TcpOp.copied (op : TcpOp) {connection : TcpConnection} {arrays : TcpArrays}
    (h : arrays.Holds connection) (hpasses : arrays.Passes op) :
    ∃ after, arrays.copied (op.copies connection) = .ok after ∧
      after.Holds (op.effect connection) := by
  by_cases hsegment : ∃ segment, op = .onSegment segment
  · obtain ⟨segment, rfl⟩ := hsegment
    exact onSegment_copied h (hpasses segment rfl)
  by_cases hread : ∃ bufferLen, op = .read bufferLen
  · obtain ⟨bufferLen, rfl⟩ := hread
    obtain ⟨after, hcopied, hafter, -⟩ := read_copied h bufferLen
    exact ⟨after, hcopied, hafter⟩
  -- the other calls leave the bytes where they are
  have hsegment' : ∀ segment, op ≠ .onSegment segment := fun segment heq => hsegment ⟨segment, heq⟩
  have hread' : ∀ bufferLen, op ≠ .read bufferLen := fun bufferLen heq => hread ⟨bufferLen, heq⟩
  have hslots : (op.effect connection).reassembly = connection.reassembly :=
    congrArg TcpReceiveSide.reassembly (TcpOp.receiveSide connection hsegment')
  have hnone : op.copies connection = [] := by
    cases op with
    | onSegment segment => exact absurd rfl (hsegment' segment)
    | read bufferLen => exact absurd rfl (hread' bufferLen)
    | buildSyn | buildAck | buildData | buildFin | tick => rfl
  rw [hnone]
  exact ⟨arrays, rfl, h.mono (TcpOp.receiveReady_eq connection hsegment' hread')
    fun i _ => by rw [hslots]⟩

/-! ### Runs -/

/-- What may have happened to the arrays between two calls.  The segments and the buffers are
the caller's, and nobody looks at a slot that is free; the ready buffer and the used slots are
as the last call left them. -/
structure TcpArrays.Between (connection : TcpConnection) (arrays given : TcpArrays) : Prop where
  sized : ∀ array : TcpArray, (given array).length = array.capacity
  ready : given .receiveReady = arrays .receiveReady
  slots : ∀ i, (connection.reassembly i).used = true →
    given (.slotPayload i) = arrays (.slotPayload i)

theorem TcpArrays.Holds.between {arrays given : TcpArrays} {connection : TcpConnection}
    (h : arrays.Holds connection) (hbetween : TcpArrays.Between connection arrays given) :
    given.Holds connection :=
  ⟨hbetween.sized, hbetween.ready ▸ h.ready, fun i hused => hbetween.slots i hused ▸ h.slots i hused⟩

/-- The calls of a run with the arrays that they leave behind. -/
inductive ArraysRun (localPort remotePort : BitVec 16) (initialSequence : BitVec 32) :
    List TcpOp → TcpArrays → Prop
  /-- after `tcp_connection_init` -/
  | init {arrays : TcpArrays} (sized : ∀ array : TcpArray, (arrays array).length = array.capacity) :
      ArraysRun localPort remotePort initialSequence [] arrays
  /-- one more call, whose copies come to an end -/
  | call {ops : List TcpOp} {op : TcpOp} {arrays given after : TcpArrays}
      (earlier : ArraysRun localPort remotePort initialSequence ops arrays)
      (between : TcpArrays.Between (run TcpWorld.step
        (TcpWorld.init localPort remotePort initialSequence) ops).connection arrays given)
      (passes : given.Passes op)
      (copied : given.copied (op.copies (run TcpWorld.step
        (TcpWorld.init localPort remotePort initialSequence) ops).connection) = .ok after) :
      ArraysRun localPort remotePort initialSequence (ops ++ [op]) after

/-- The run lemma, by induction on the calls: before the first call there are no bytes to be
held, and `TcpOp.copied` is the step. -/
theorem ArraysRun.holds {localPort remotePort : BitVec 16} {initialSequence : BitVec 32}
    {ops : List TcpOp} {arrays : TcpArrays}
    (h : ArraysRun localPort remotePort initialSequence ops arrays) :
    arrays.Holds (run TcpWorld.step (TcpWorld.init localPort remotePort initialSequence)
      ops).connection := by
  induction h with
  | init sized => exact ⟨sized, List.nil_prefix, fun i hused => absurd hused Bool.false_ne_true⟩
  | @call ops op arrays given after earlier between passes copied ih =>
      obtain ⟨after', hcopied, hafter⟩ := op.copied (ih.between between) passes
      rw [copied] at hcopied
      obtain rfl := Except.ok.inj hcopied
      rwa [Transition.run_append]

/-- What the caller has to do before a call: its segment goes into `segment->payload`. -/
theorem TcpArrays.Holds.exists_given {arrays : TcpArrays} {connection : TcpConnection}
    (h : arrays.Holds connection) (op : TcpOp) :
    ∃ given, TcpArrays.Between connection arrays given ∧ given.Passes op := by
  by_cases hsegment : ∃ segment, op = .onSegment segment
  · obtain ⟨segment, rfl⟩ := hsegment
    have hfits : segment.payload.length ≤ tcpMaxPayloadLen := segment.payload_le
    refine ⟨Function.update arrays .segmentPayload (segment.payload ++
      List.replicate (tcpMaxPayloadLen - segment.payload.length) 0),
        ⟨TcpArrays.sized_update h.sized ?_, ?_, fun i _ => ?_⟩, fun passed heq => ?_⟩
    · rw [List.length_append, List.length_replicate]
      exact Nat.add_sub_cancel' hfits
    · exact Function.update_of_ne (by simp) _ _
    · exact Function.update_of_ne (by simp) _ _
    · obtain rfl := TcpOp.onSegment.inj heq
      rw [Function.update_self]
      exact List.prefix_append _ _
  · exact ⟨arrays, ⟨h.sized, rfl, fun _ _ => rfl⟩, fun segment heq => absurd ⟨segment, heq⟩ hsegment⟩

/-- Every sequence of calls has a run on arrays: no call is held up by a copy. -/
theorem exists_arraysRun (localPort remotePort : BitVec 16) (initialSequence : BitVec 32)
    (ops : List TcpOp) : ∃ arrays, ArraysRun localPort remotePort initialSequence ops arrays := by
  induction ops using List.reverseRecOn with
  | nil => exact ⟨fun array => List.replicate array.capacity 0, .init fun _ => List.length_replicate⟩
  | append_singleton ops op ih =>
      obtain ⟨arrays, hrun⟩ := ih
      obtain ⟨given, hbetween, hpasses⟩ := hrun.holds.exists_given op
      obtain ⟨after, hcopied, -⟩ := op.copied (hrun.holds.between hbetween) hpasses
      exact ⟨after, .call hrun hbetween hpasses hcopied⟩

/-- **The arrays hold what the lists say, in every run.**  The ready buffer and the used
slots begin with the bytes that the model has for them.  Whatever the next call is, its
copies stay inside their arrays, and a call of `tcp_connection_read` leaves the bytes that it
returns in the buffer of its caller. -/
theorem arrays_run {localPort remotePort : BitVec 16} {initialSequence : BitVec 32}
    {ops : List TcpOp} {arrays : TcpArrays}
    (h : ArraysRun localPort remotePort initialSequence ops arrays) :
    let connection := (run TcpWorld.step (TcpWorld.init localPort remotePort initialSequence)
      ops).connection
    connection.receiveReady <+: arrays .receiveReady ∧
      (∀ i, (connection.reassembly i).used = true →
        (connection.reassembly i).payload <+: arrays (.slotPayload i)) ∧
      ∀ op given, TcpArrays.Between connection arrays given → given.Passes op →
        ∃ after, given.copied (op.copies connection) = .ok after ∧
          ∀ bufferLen, op = .read bufferLen →
            (tcpConnectionRead connection bufferLen).1 <+: after (.buffer bufferLen) := by
  intro connection
  have hholds : arrays.Holds connection := h.holds
  refine ⟨hholds.ready, hholds.slots, fun op given hbetween hpasses => ?_⟩
  have hgiven : given.Holds connection := hholds.between hbetween
  by_cases hread : ∃ bufferLen, op = .read bufferLen
  · obtain ⟨bufferLen, rfl⟩ := hread
    obtain ⟨after, hcopied, -, hbuffer⟩ := read_copied hgiven bufferLen
    exact ⟨after, hcopied, fun _ heq => TcpOp.read.inj heq ▸ hbuffer⟩
  · obtain ⟨after, hcopied, -⟩ := op.copied hgiven hpasses
    exact ⟨after, hcopied, fun bufferLen heq => absurd ⟨bufferLen, heq⟩ hread⟩

/-- A segment that is ahead of its turn, in its slot. -/
theorem arrays_run_ahead :
    ∃ arrays, ArraysRun 40000 80 1000
        (establishConnection ++ [.onSegment (peerSegment 9005 1001 tcpFlagAck [5, 6])]) arrays ∧
      [5, 6] <+: arrays (.slotPayload ⟨0, by decide⟩) := by
  obtain ⟨arrays, hrun⟩ := exists_arraysRun 40000 80 1000
    (establishConnection ++ [.onSegment (peerSegment 9005 1001 tcpFlagAck [5, 6])])
  have hslot : (run TcpWorld.step (TcpWorld.init 40000 80 1000) (establishConnection ++
      [.onSegment (peerSegment 9005 1001 tcpFlagAck [5, 6])])).connection.reassembly
        ⟨0, by decide⟩ = ⟨true, 9005, [5, 6]⟩ := by
    decide +kernel
  obtain ⟨-, hslots, -⟩ := arrays_run hrun
  have hheld := hslots ⟨0, by decide⟩ (by rw [hslot])
  rw [hslot] at hheld
  exact ⟨arrays, hrun, hheld⟩

end Netstack
