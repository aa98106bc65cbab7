/-
# The receive side stays inside its arrays

Whatever the peer sends, the sixteen slots, the count kept beside them and the ready
buffer stay consistent (`receiveSide_bounded`).

The bytes of a slot and of the ready buffer are lists in this model, which cannot
overflow.  So every `memcpy` and `memmove` of the receive path is recorded here as
the source computes it: source and destination, the two offsets and the length, in
the state in which the call is made.  `readyAppendCopies` … `tcpConnectionReadCopies`
follow the functions of `Netstack.TcpConnection.Reassembly` and
`Netstack.TcpConnection.Engine` branch by branch, and `copies_inBounds` says that no
copy leaves the bytes its source holds or the array it writes.  That the lists are what
these copies leave in the arrays is shown in `Netstack.TcpConnection.Arrays`.
-/

import Netstack.TcpConnection.Calls
import Netstack.TcpConnection.Reach

namespace Netstack

open Relation (ReflTransGen)
open Transition (run run_invariant)

/-! ### The count and the capacity -/

/-- `reassembly_count` is the number of used slots. -/
def TcpConnection.Counted (connection : TcpConnection) : Prop :=
  connection.reassemblyCount = connection.usedSlots.card

/-- The ready bytes fit into `receive_ready`. -/
def TcpConnection.ReadyFits (connection : TcpConnection) : Prop :=
  connection.receiveReady.length ≤ tcpReceiveReadyCapacity

theorem TcpConnection.usedSlots_congr {connection next : TcpConnection}
    (h : next.reassembly = connection.reassembly) : next.usedSlots = connection.usedSlots := by
  simp only [TcpConnection.usedSlots, h]

/-- The receive side decides whether the count is right. -/
theorem TcpConnection.Counted.of_receiveSide {connection next : TcpConnection}
    (h : connection.Counted) (hside : next.receiveSide = connection.receiveSide) :
    next.Counted := by
  have hslots : next.reassembly = connection.reassembly :=
    congrArg TcpReceiveSide.reassembly hside
  have hcount : next.reassemblyCount = connection.reassemblyCount :=
    congrArg TcpReceiveSide.reassemblyCount hside
  rw [TcpConnection.Counted, hcount, TcpConnection.usedSlots_congr hslots]
  exact h

/-- Emptying a used slot takes it out of the used ones. -/
theorem usedSlots_update_zero {connection next : TcpConnection} {i : SlotIndex}
    (h : next.reassembly = Function.update connection.reassembly i TcpReassemblySlot.zero) :
    next.usedSlots = connection.usedSlots.erase i := by
  ext j
  rw [Finset.mem_erase, TcpConnection.mem_usedSlots, TcpConnection.mem_usedSlots, h,
    Function.update_apply]
  by_cases hj : j = i
  · simp [hj, TcpReassemblySlot.zero]
  · simp [hj]

/-- Filling a free slot adds it to the used ones. -/
theorem TcpConnection.store_usedSlots (connection : TcpConnection) (i : SlotIndex)
    (segment : TcpSegment) :
    (connection.store i segment).usedSlots = insert i connection.usedSlots := by
  ext j
  rw [Finset.mem_insert, TcpConnection.mem_usedSlots, TcpConnection.mem_usedSlots,
    TcpConnection.store_reassembly]
  by_cases hj : j = i
  · simp [hj]
  · simp [hj]

/-- `remove_reassembly_slot` takes one off the count exactly when it empties a used slot. -/
theorem TcpConnection.Counted.remove {connection : TcpConnection} {i : SlotIndex}
    (h : connection.Counted) (hused : (connection.reassembly i).used = true) :
    (removeReassemblySlot connection i).Counted := by
  have hslots : (removeReassemblySlot connection i).usedSlots = connection.usedSlots.erase i :=
    usedSlots_update_zero (by rw [removeReassemblySlot_of_used hused])
  have hcount : (removeReassemblySlot connection i).reassemblyCount =
      connection.reassemblyCount - 1 := by rw [removeReassemblySlot_of_used hused]
  rw [TcpConnection.Counted, hslots, hcount,
    Finset.card_erase_of_mem (TcpConnection.mem_usedSlots.2 hused), h]

/-- A step of the promotion empties one used slot, discarded or delivered, and the count goes
along. -/
theorem PromoteStep.counted {connection next : TcpConnection} (h : PromoteStep connection next)
    (hcount : connection.Counted) : next.Counted := by
  cases h with
  | discard used => exact hcount.remove used
  | @deliver i holds room =>
      have hdelivered : (connection.deliver
          ((connection.reassembly i).bytesFrom connection.receiveNext)).Counted := hcount
      exact hdelivered.remove holds.1

/-- Bytes are delivered only where they fit. -/
theorem TcpConnection.HasRoom.deliver {connection : TcpConnection} {data : List UInt8}
    (h : connection.HasRoom data.length) : (connection.deliver data).ReadyFits := by
  rw [TcpConnection.ReadyFits, TcpConnection.deliver_receiveReady, List.length_append]
  exact h

/-- What is discarded leaves the ready bytes, and what is delivered had room. -/
theorem PromoteStep.readyFits {connection next : TcpConnection} (h : PromoteStep connection next)
    (hfits : connection.ReadyFits) : next.ReadyFits := by
  cases h with
  | discard => rwa [TcpConnection.ReadyFits, removeReassemblySlot_receiveReady]
  | deliver holds room =>
      rw [TcpConnection.ReadyFits, removeReassemblySlot_receiveReady]
      exact room.deliver

/-! ### The invariant -/

/-- What the receive side keeps in every reachable state. -/
structure TcpConnection.Bounded (connection : TcpConnection) : Prop where
  slots : connection.SlotsBounded
  counted : connection.Counted
  ready : connection.ReadyFits

/-- The three bounds are about the receive side, and a read only makes the ready bytes fewer: so
whatever leaves the receive side alone keeps them. -/
theorem TcpConnection.Bounded.of_receiveSide {connection next : TcpConnection}
    (h : connection.Bounded) (hside : next.receiveSide = connection.receiveSide)
    (hready : next.receiveReady.length ≤ connection.receiveReady.length) : next.Bounded := by
  refine ⟨fun i => ?_, h.counted.of_receiveSide hside, le_trans hready h.ready⟩
  rw [show next.reassembly = connection.reassembly from congrArg TcpReceiveSide.reassembly hside]
  exact h.slots i

theorem PromoteStep.bounded {connection next : TcpConnection} (h : PromoteStep connection next)
    (hb : connection.Bounded) : next.Bounded :=
  ⟨h.slotsBounded hb.slots, h.counted hb.counted, h.readyFits hb.ready⟩

/-- Each step of the receive path keeps the bounds: a slot that is filled was free, so that the
count grows with the used slots, and delivery has been checked for room. -/
theorem ReceiveStep.bounded {segment : TcpSegment} {connection next : TcpConnection}
    (h : ReceiveStep segment connection next) (hb : connection.Bounded) : next.Bounded := by
  refine ⟨h.slotsBounded hb.slots, ?_, ?_⟩
  · cases h with
    | accept | remember => exact hb.counted
    | @buffer i future short fresh free =>
        have hnew : i ∉ connection.usedSlots := by
          rw [TcpConnection.mem_usedSlots, free]
          exact Bool.false_ne_true
        rw [TcpConnection.Counted, TcpConnection.store_usedSlots, Finset.card_insert_of_notMem hnew]
        exact congrArg (· + 1) hb.counted
    | promote step => exact step.counted hb.counted
  · cases h with
    | accept holds room => exact room.deliver
    | buffer | remember => exact hb.ready
    | promote step => exact step.readyFits hb.ready

theorem FinStep.bounded {segment : TcpSegment} {connection next : TcpConnection}
    (h : FinStep segment connection next) (hb : connection.Bounded) : next.Bounded := by
  cases h <;> exact ⟨hb.slots, hb.counted, hb.ready⟩

theorem ReceivePath.bounded {segment : TcpSegment} {start last : TcpConnection} {n : ℕ}
    (h : ReceivePath segment start n last) (hb : start.Bounded) : last.Bounded :=
  h.invariant (P := fun _ c => c.Bounded) (fun _ _ _ hP hs => hs.bounded hP)
    (fun _ _ _ hP hs => hs.bounded hP) hb

theorem TcpConnection.Bounded.afterAck {connection : TcpConnection} (hb : connection.Bounded)
    (segment : TcpSegment) : (connection.afterAck segment).Bounded :=
  hb.of_receiveSide (connection.afterAck_receiveSide segment) (by simp)

/-- A connection whose slots were cleared. -/
theorem clearReassembly_bounded (connection : TcpConnection) :
    (clearReassembly connection).Bounded := by
  refine ⟨fun i hused => absurd hused Bool.false_ne_true, ?_, Nat.zero_le _⟩
  have hnone : (clearReassembly connection).usedSlots = ∅ := by
    ext i
    simp [clearReassembly, TcpReassemblySlot.zero]
  rw [TcpConnection.Counted, hnone]
  rfl

/-- An incoming segment keeps the bounds in every branch of `tcp_connection_on_segment`: a reset
clears, a refusal has taken the steps before it, and the closing checks do not touch the receive
side. -/
theorem OnSegment.bounded {segment : TcpSegment} {connection last : TcpConnection} {result : ℤ}
    {n : ℕ} (h : OnSegment segment connection result n last) (hb : connection.Bounded) :
    last.Bounded := by
  have hack := hb.afterAck segment
  cases h with
  | misaddressed => exact hb
  | aborted => exact clearReassembly_bounded _
  | unanswered | mismatched | ignored => exact hack
  | opened => exact ⟨hack.slots, hack.counted, hack.ready⟩
  | refused _ _ _ payload => exact payload.path.bounded hack
  | received _ _ _ payload =>
      have hpath := payload.received_path.bounded hack
      exact hpath.of_receiveSide (finishClose_receiveSide _) (by rw [finishClose_receiveReady])

/-- Only an incoming segment and a read touch the ready bytes. -/
theorem TcpOp.receiveReady_eq {op : TcpOp} (connection : TcpConnection)
    (hop : ∀ segment, op ≠ .onSegment segment) (hread : ∀ bufferLen, op ≠ .read bufferLen) :
    (op.effect connection).receiveReady = connection.receiveReady := by
  cases op with
  | buildSyn window =>
      rcases buildSyn_cases connection window with ⟨-, heq⟩ | ⟨-, segment, -, heq⟩ <;>
        simp [TcpOp.effect, heq, TcpConnection.sent]
  | onSegment segment => exact absurd rfl (hop segment)
  | buildAck => rfl
  | buildData payload window =>
      rcases buildData_cases connection payload window with ⟨-, heq⟩ | ⟨-, -, segment, -, heq⟩ <;>
        simp [TcpOp.effect, heq, TcpConnection.sent]
  | buildFin window =>
      rcases buildFin_cases connection window with ⟨-, -, heq⟩ | ⟨_, -, segment, -, heq⟩ <;>
        simp [TcpOp.effect, heq, TcpConnection.sent]
  | tick elapsedMs =>
      rcases tick_connection connection elapsedMs with ⟨_, _, _, heq⟩ | ⟨_, heq⟩ <;>
        simp [TcpOp.effect, heq, TcpConnection.timed, TcpConnection.givenUp]
  | read bufferLen => exact absurd rfl (hread bufferLen)

/-- No call but an incoming segment makes the ready bytes more. -/
theorem TcpOp.receiveReady_length_le {op : TcpOp} (connection : TcpConnection)
    (hop : ∀ segment, op ≠ .onSegment segment) :
    (op.effect connection).receiveReady.length ≤ connection.receiveReady.length := by
  by_cases hread : ∃ bufferLen, op = .read bufferLen
  · obtain ⟨bufferLen, rfl⟩ := hread
    rw [TcpOp.effect, read_eq]
    simp
  · rw [TcpOp.receiveReady_eq connection hop fun bufferLen heq => hread ⟨bufferLen, heq⟩]

/-- **One call keeps the receive side in its bounds.** -/
theorem TcpOp.bounded (op : TcpOp) {connection : TcpConnection} (hb : connection.Bounded) :
    (op.effect connection).Bounded := by
  by_cases hop : ∃ segment, op = .onSegment segment
  · obtain ⟨segment, rfl⟩ := hop
    exact (onSegment_spec segment hb.slots).bounded hb
  · have hne : ∀ segment, op ≠ .onSegment segment := fun segment heq => hop ⟨segment, heq⟩
    exact hb.of_receiveSide (TcpOp.receiveSide connection hne)
      (TcpOp.receiveReady_length_le connection hne)

/-- The bounds hold in every reachable state, whatever the peer sent and the user called. -/
theorem bounded_run (localPort remotePort : BitVec 16) (initialSequence : BitVec 32)
    (ops : List TcpOp) :
    (run TcpWorld.step (TcpWorld.init localPort remotePort initialSequence)
      ops).connection.Bounded :=
  run_invariant (I := fun world : TcpWorld => world.connection.Bounded)
    (fun _ op h => op.bounded h) ops (clearReassembly_bounded _)

/-! ### The copies -/

/-- An array that the receive path copies from or to. -/
inductive TcpArray where
  /-- `segment->payload` -/
  | segmentPayload
  /-- `reassembly[i].payload` -/
  | slotPayload (i : SlotIndex)
  /-- `receive_ready` -/
  | receiveReady
  /-- the `buffer` of `tcp_connection_read` -/
  | buffer (bufferLen : ℕ)
deriving DecidableEq

/-- How many bytes the array has. -/
def TcpArray.capacity : TcpArray → ℕ
  | .segmentPayload => tcpMaxPayloadLen
  | .slotPayload _ => tcpReassemblySlotDataLen
  | .receiveReady => tcpReceiveReadyCapacity
  | .buffer bufferLen => bufferLen

/-- One `memcpy` or `memmove`. -/
structure TcpCopy where
  source : TcpArray
  /-- the bytes that the source holds: a `payload_len`, or `receive_ready_len` -/
  sourceLen : ℕ
  sourceOffset : ℕ
  destination : TcpArray
  destinationOffset : ℕ
  length : ℕ
deriving DecidableEq

/-- The copy reads bytes that its source holds and writes inside its destination. -/
def TcpCopy.InBounds (copy : TcpCopy) : Prop :=
  copy.sourceOffset + copy.length ≤ copy.sourceLen ∧
    copy.sourceLen ≤ copy.source.capacity ∧
    copy.destinationOffset + copy.length ≤ copy.destination.capacity

/-- The copy of `ready_append`, for the `dataLen` bytes of the source from
`sourceOffset` on. -/
def readyAppendCopies (connection : TcpConnection) (source : TcpArray)
    (sourceLen sourceOffset dataLen : ℕ) : List TcpCopy :=
  if dataLen = 0 then []
  else if connection.receiveReady.length > tcpReceiveReadyCapacity then []
  else if dataLen > tcpReceiveReadyCapacity - connection.receiveReady.length then []
  else [⟨source, sourceLen, sourceOffset, .receiveReady, connection.receiveReady.length, dataLen⟩]

/-- The copy of `buffer_future_payload`. -/
def bufferFuturePayloadCopies (connection : TcpConnection) (sequenceNumber : BitVec 32)
    (payload : List UInt8) : List TcpCopy :=
  if payload.length = 0 then []
  else if payload.length > tcpReassemblySlotDataLen then []
  else if rangeAlreadyBuffered connection sequenceNumber
      (sequenceNumber + BitVec.ofNat 32 payload.length) then []
  else match findFreeReassemblySlot connection with
    | none => []
    | some slotIndex =>
      [⟨.segmentPayload, payload.length, 0, .slotPayload slotIndex, 0, payload.length⟩]

/-- The copy in the body of the `for` loop of `promote_reassembly`. -/
def promoteSlotCopies (connection : TcpConnection) (i : SlotIndex) : List TcpCopy :=
  let slot := connection.reassembly i
  if !slot.used then []
  else if seqLe slot.slotEnd connection.receiveNext then []
  else if seqGt slot.sequenceNumber connection.receiveNext then []
  else
    let overlap := (connection.receiveNext - slot.sequenceNumber).toNat
    if overlap > slot.payload.length then []
    else readyAppendCopies connection (.slotPayload i) slot.payload.length overlap
      (slot.payload.length - overlap)

/-- The copies of the `for` loop of `promote_reassembly`. -/
def promoteScanCopies : List SlotIndex → TcpConnection → List TcpCopy
  | [], _ => []
  | i :: rest, connection =>
    promoteSlotCopies connection i ++
      match promoteSlot connection i with
      | .error _ => []
      | .ok (connection, _) => promoteScanCopies rest connection

/-- The copies of the `while` loop of `promote_reassembly`. -/
def promoteWhileCopies : ℕ → TcpConnection → List TcpCopy
  | 0, _ => []
  | fuel + 1, connection =>
    promoteScanCopies (List.finRange tcpReassemblySlotCount) connection ++
      match promoteScan (List.finRange tcpReassemblySlotCount) connection false with
      | .error _ => []
      | .ok (connection, true) => promoteWhileCopies fuel connection
      | .ok (_, false) => []

/-- The copies of `promote_reassembly`. -/
def promoteReassemblyCopies (connection : TcpConnection) : List TcpCopy :=
  promoteWhileCopies (tcpReassemblySlotCount + 1) connection

/-- The copies of `process_payload`. -/
def processPayloadCopies (connection : TcpConnection) (segment : TcpSegment) : List TcpCopy :=
  if segment.payload.length = 0 then []
  else if seqLe segment.payloadEnd connection.receiveNext then []
  else if seqGt segment.sequenceNumber connection.receiveNext then
    bufferFuturePayloadCopies connection segment.sequenceNumber segment.payload
  else
    let overlap := (connection.receiveNext - segment.sequenceNumber).toNat
    if overlap > segment.payload.length then []
    else
      readyAppendCopies connection .segmentPayload segment.payload.length overlap
        (segment.payload.length - overlap) ++
      match readyAppend connection (segment.payload.drop overlap) with
      | none => []
      | some connection =>
        promoteReassemblyCopies { connection with
          receiveNext :=
            connection.receiveNext + BitVec.ofNat 32 (segment.payload.length - overlap) }

/-- The copies of `tcp_connection_on_segment`. -/
def tcpConnectionOnSegmentCopies (connection : TcpConnection) (segment : TcpSegment) :
    List TcpCopy :=
  if !connection.addressedBy segment then []
  else if segment.hasFlag tcpFlagRst then []
  else
    let connection := connection.afterAck segment
    if connection.state = .synSent then []
    else if !connection.state.receives then []
    else processPayloadCopies connection segment

/-- The copies of `tcp_connection_read`: the bytes to the caller, and the rest of the
ready bytes to the front. -/
def tcpConnectionReadCopies (connection : TcpConnection) (bufferLen : ℕ) : List TcpCopy :=
  if bufferLen = 0 ∨ connection.receiveReady.length = 0 then []
  else
    let copyLen :=
      if connection.receiveReady.length > bufferLen then bufferLen
      else connection.receiveReady.length
    let remaining := connection.receiveReady.length - copyLen
    ⟨.receiveReady, connection.receiveReady.length, 0, .buffer bufferLen, 0, copyLen⟩ ::
      if remaining > 0 then
        [⟨.receiveReady, connection.receiveReady.length, copyLen, .receiveReady, 0, remaining⟩]
      else []

/-- The copies of the receive path in one call. -/
def TcpOp.copies (connection : TcpConnection) : TcpOp → List TcpCopy
  | .onSegment segment => tcpConnectionOnSegmentCopies connection segment
  | .read bufferLen => tcpConnectionReadCopies connection bufferLen
  | .buildSyn _ | .buildAck _ | .buildData _ _ | .buildFin _ | .tick _ => []

/-- The copy of `ready_append` reads what its caller says is there, and its check for room is
what keeps the destination in bounds. -/
theorem readyAppendCopies_inBounds {connection : TcpConnection} {source : TcpArray}
    {sourceLen sourceOffset dataLen : ℕ} (hread : sourceOffset + dataLen ≤ sourceLen)
    (hsource : sourceLen ≤ source.capacity) :
    ∀ copy ∈ readyAppendCopies connection source sourceLen sourceOffset dataLen,
      copy.InBounds := by
  intro copy hcopy
  unfold readyAppendCopies at hcopy
  split_ifs at hcopy with hzero hfull hroom
  · simp at hcopy
  · simp at hcopy
  · simp at hcopy
  · obtain rfl := List.mem_singleton.1 hcopy
    refine ⟨hread, hsource, ?_⟩
    show connection.receiveReady.length + dataLen ≤ tcpReceiveReadyCapacity
    omega

/-- The copy into a slot is bounded by the check against `TCP_REASSEMBLY_SLOT_DATA_LEN`: a segment
may have more bytes than a slot has room for. -/
theorem bufferFuturePayloadCopies_inBounds (connection : TcpConnection)
    (sequenceNumber : BitVec 32) {payload : List UInt8} (hlen : payload.length ≤ tcpMaxPayloadLen) :
    ∀ copy ∈ bufferFuturePayloadCopies connection sequenceNumber payload, copy.InBounds := by
  intro copy hcopy
  unfold bufferFuturePayloadCopies at hcopy
  split_ifs at hcopy with hzero hlong hbuffered
  · simp at hcopy
  · simp at hcopy
  · simp at hcopy
  · cases hfree : findFreeReassemblySlot connection with
    | none => simp [hfree] at hcopy
    | some i =>
        simp only [hfree, List.mem_singleton] at hcopy
        obtain rfl := hcopy
        refine ⟨(Nat.zero_add _).le, hlen, ?_⟩
        show 0 + payload.length ≤ tcpReassemblySlotDataLen
        omega

/-- The overlap that is clipped was compared with the length of the slot, so that what is read
from the slot is inside of its payload. -/
theorem promoteSlotCopies_inBounds {connection : TcpConnection} (hb : connection.SlotsBounded)
    (i : SlotIndex) : ∀ copy ∈ promoteSlotCopies connection i, copy.InBounds := by
  intro copy hcopy
  unfold promoteSlotCopies at hcopy
  dsimp only at hcopy
  split_ifs at hcopy with hfree hold hfuture hover
  · simp at hcopy
  · simp at hcopy
  · simp at hcopy
  · simp at hcopy
  · have hused : (connection.reassembly i).used = true := by simpa using hfree
    refine readyAppendCopies_inBounds ?_ (hb i hused).2 copy hcopy
    omega

/-- The loop body keeps the slots bounded. -/
theorem promoteSlot_slotsBounded {connection next : TcpConnection} {i : SlotIndex} {moved : Bool}
    (hb : connection.SlotsBounded) (h : promoteSlot connection i = .ok (next, moved)) :
    next.SlotsBounded :=
  (promoteSlot_promotes i connection next moved ⟨.refl, hb⟩ h).bounded

/-- A scan keeps the slots bounded. -/
theorem promoteScan_slotsBounded {indices : List SlotIndex} {connection last : TcpConnection}
    {progress moved : Bool} (hb : connection.SlotsBounded)
    (h : promoteScan indices connection progress = .ok (last, moved)) : last.SlotsBounded :=
  Scan.scan_invariant (fun _ _ _ _ hb h => promoteSlot_slotsBounded hb h) hb
    ((promoteScan_eq _ _ _).symm.trans h)

/-- A scan, by induction on the slots still to come: each body leaves the slots bounded for the
next. -/
theorem promoteScanCopies_inBounds (indices : List SlotIndex) {connection : TcpConnection}
    (hb : connection.SlotsBounded) :
    ∀ copy ∈ promoteScanCopies indices connection, copy.InBounds := by
  induction indices generalizing connection with
  | nil => simp [promoteScanCopies]
  | cons i rest ih =>
      intro copy hcopy
      rw [promoteScanCopies, List.mem_append] at hcopy
      rcases hcopy with hslot | hrest
      · exact promoteSlotCopies_inBounds hb i copy hslot
      · cases hbody : promoteSlot connection i with
        | error last => simp [hbody] at hrest
        | ok after =>
            simp only [hbody] at hrest
            exact ih (promoteSlot_slotsBounded hb hbody) copy hrest

/-- All scans, by induction on the fuel, which bounds their number. -/
theorem promoteWhileCopies_inBounds (fuel : ℕ) {connection : TcpConnection}
    (hb : connection.SlotsBounded) :
    ∀ copy ∈ promoteWhileCopies fuel connection, copy.InBounds := by
  induction fuel generalizing connection with
  | zero => simp [promoteWhileCopies]
  | succ fuel ih =>
      intro copy hcopy
      rw [promoteWhileCopies, List.mem_append] at hcopy
      rcases hcopy with hscan | hrest
      · exact promoteScanCopies_inBounds _ hb copy hscan
      · cases heq : promoteScan (List.finRange tcpReassemblySlotCount) connection false with
        | error last => simp [heq] at hrest
        | ok after =>
            obtain ⟨last, moved⟩ := after
            cases moved with
            | false => simp [heq] at hrest
            | true =>
                simp only [heq] at hrest
                exact ih (promoteScan_slotsBounded hb heq) copy hrest

/-- The three ways of a payload: it is buffered, or delivered and followed by the promotion of
what was behind the gap, or dropped without a copy. -/
theorem processPayloadCopies_inBounds {connection : TcpConnection} (hb : connection.SlotsBounded)
    (segment : TcpSegment) : ∀ copy ∈ processPayloadCopies connection segment, copy.InBounds := by
  intro copy hcopy
  unfold processPayloadCopies at hcopy
  dsimp only at hcopy
  generalize (connection.receiveNext - segment.sequenceNumber).toNat = overlap at hcopy
  split_ifs at hcopy with hempty hold hfuture hover
  · simp at hcopy
  · simp at hcopy
  · exact bufferFuturePayloadCopies_inBounds connection _ segment.payload_le copy hcopy
  · simp at hcopy
  · rcases List.mem_append.1 hcopy with happend | hpromote
    · exact readyAppendCopies_inBounds (by omega) segment.payload_le copy happend
    · cases hready : readyAppend connection (segment.payload.drop overlap) with
      | none => simp [hready] at hpromote
      | some next =>
          simp only [hready] at hpromote
          refine promoteWhileCopies_inBounds _ ?_ copy hpromote
          have hslots : next.reassembly = connection.reassembly := by
            unfold readyAppend at hready
            split_ifs at hready <;> cases hready <;> rfl
          intro i
          show (next.reassembly i).used = true → _
          rw [hslots]
          exact hb i

/-- **No copy of a call leaves its arrays**, in a state whose receive side is in its bounds. -/
theorem TcpOp.copies_inBounds (op : TcpOp) {connection : TcpConnection}
    (hb : connection.Bounded) : ∀ copy ∈ op.copies connection, copy.InBounds := by
  intro copy hcopy
  cases op with
  | onSegment segment =>
      simp only [TcpOp.copies, tcpConnectionOnSegmentCopies] at hcopy
      split_ifs at hcopy
      · simp at hcopy
      · simp at hcopy
      · simp at hcopy
      · simp at hcopy
      · exact processPayloadCopies_inBounds (hb.afterAck segment).slots segment copy hcopy
  | read bufferLen =>
      have hready : connection.receiveReady.length ≤ tcpReceiveReadyCapacity := hb.ready
      simp only [TcpOp.copies, tcpConnectionReadCopies] at hcopy
      split_ifs at hcopy with hnone hshort hrest hrest
      · simp at hcopy
      · rcases List.mem_cons.1 hcopy with rfl | hmove
        · exact ⟨by simp; omega, hready, (Nat.zero_add _).le⟩
        · obtain rfl := List.mem_singleton.1 hmove
          exact ⟨by simp; omega, hready, by simp [TcpArray.capacity]; omega⟩
      · omega
      · omega
      · obtain rfl := List.mem_singleton.1 hcopy
        exact ⟨by simp, hready, by simp [TcpArray.capacity]; omega⟩
  | buildSyn | buildAck | buildData | buildFin | tick => simp [TcpOp.copies] at hcopy

/-- **The receive side is bounded whatever the peer sends.**  In every reachable state the
count is right, the slots and the ready bytes fit into their arrays, and every copy that
the next call makes stays inside them. -/
theorem receiveSide_bounded (localPort remotePort : BitVec 16) (initialSequence : BitVec 32)
    (ops : List TcpOp) :
    let connection := (run TcpWorld.step (TcpWorld.init localPort remotePort initialSequence)
      ops).connection
    connection.reassemblyCount =
        (Finset.univ.filter fun i => (connection.reassembly i).used = true).card ∧
      connection.reassemblyCount ≤ 16 ∧
      (∀ i, (connection.reassembly i).used = true →
        1 ≤ (connection.reassembly i).payload.length ∧
          (connection.reassembly i).payload.length ≤ 2048) ∧
      connection.receiveReady.length ≤ 32768 ∧
      ∀ op : TcpOp, ∀ copy ∈ op.copies connection, copy.InBounds := by
  intro connection
  have hb : connection.Bounded := bounded_run localPort remotePort initialSequence ops
  exact ⟨hb.counted, hb.counted.trans_le connection.usedSlots_card_le, hb.slots, hb.ready,
    fun op => op.copies_inBounds hb⟩

end Netstack
