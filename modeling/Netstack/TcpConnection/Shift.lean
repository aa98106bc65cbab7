/-
# The same run with other sequence numbers

The two directions of a connection count from arbitrary numbers: its own initial
sequence number, and the one the peer sends in its SYN-ACK.  Adding `a` to the first
and `b` to the second, modulo `2 ^ 32`, should add `a` and `b` to the numbers of a run
and change nothing else of it.

`TcpConnection.moved` adds the two numbers to a connection.  Every function of the
receive path commutes with it, because it compares sequence numbers by their
differences only (`processPayload_moved`), and the public functions do so up to the
fields that they do not read (`TcpConnection.IsMoved`).  A run keeps this relation
(`run_moved`).

One constant stands in the way: `tcp_connection_build_syn` acknowledges `0` in every
run, also behind a completed handshake (`reopenedSyn_acknowledges_zero`).
-/

import Netstack.TcpConnection.Calls

namespace Netstack

open Transition (run)

/-! ### Moving sequence numbers -/

/-- The segment with `x` added to its sequence number and `y` to its acknowledgment number. -/
def TcpSegment.moved (x y : BitVec 32) (segment : TcpSegment) : TcpSegment :=
  { segment with
    sequenceNumber := segment.sequenceNumber + x
    acknowledgmentNumber := segment.acknowledgmentNumber + y }

/-- The slot with `d` added to its sequence number, when it is used. -/
def TcpReassemblySlot.moved (d : BitVec 32) (slot : TcpReassemblySlot) : TcpReassemblySlot :=
  if slot.used then { slot with sequenceNumber := slot.sequenceNumber + d } else slot

/-- What is added to the numbers of a connection.  The last two fields are what the other
connection holds where no function reads: as the remembered segment when none is armed, and
as the number of a pending FIN when none is pending. -/
structure TcpMove where
  /-- added to the numbers of the connection's own direction -/
  send : BitVec 32
  /-- added to the numbers of the peer's direction -/
  receive : BitVec 32
  /-- added to the acknowledgment number of the remembered segment -/
  ack : BitVec 32
  lastSegment : TcpSegment
  pendingFinSequence : BitVec 32

/-- The connection with its numbers moved. -/
def TcpConnection.moved (m : TcpMove) (connection : TcpConnection) : TcpConnection :=
  { connection with
    sendUnacknowledged := connection.sendUnacknowledged + m.send
    sendNext := connection.sendNext + m.send
    receiveNext := connection.receiveNext + m.receive
    lastSegment := if connection.hasRetransmitSegment then
      connection.lastSegment.moved m.send m.ack else m.lastSegment
    reassembly := fun i => (connection.reassembly i).moved m.receive
    pendingFinSequence := if connection.pendingFin then
      connection.pendingFinSequence + m.receive else m.pendingFinSequence }

section Comparisons

variable (x y d : BitVec 32)

theorem moved_sub_moved : (x + d) - (y + d) = x - y := add_sub_add_right_eq_sub x y d

@[simp] theorem seqLt_moved : seqLt (x + d) (y + d) = seqLt x y := by
  rw [seqLt, moved_sub_moved, seqLt]

@[simp] theorem seqLe_moved : seqLe (x + d) (y + d) = seqLe x y := by
  rw [seqLe, moved_sub_moved, seqLe]

@[simp] theorem seqGt_moved : seqGt (x + d) (y + d) = seqGt x y := by
  rw [seqGt, moved_sub_moved, seqGt]

@[simp] theorem seqGe_moved : seqGe (x + d) (y + d) = seqGe x y := by
  rw [seqGe, moved_sub_moved, seqGe]

end Comparisons

@[simp] theorem TcpSegment.moved_payloadEnd (x y : BitVec 32) (segment : TcpSegment) :
    (segment.moved x y).payloadEnd = segment.payloadEnd + x :=
  add_right_comm segment.sequenceNumber x _

@[simp] theorem TcpSegment.moved_hasFlag (x y : BitVec 32) (segment : TcpSegment)
    (flag : BitVec 8) : (segment.moved x y).hasFlag flag = segment.hasFlag flag := rfl

@[simp] theorem TcpReassemblySlot.moved_used (d : BitVec 32) (slot : TcpReassemblySlot) :
    (slot.moved d).used = slot.used := by
  unfold TcpReassemblySlot.moved
  split_ifs <;> rfl

@[simp] theorem TcpReassemblySlot.moved_payload (d : BitVec 32) (slot : TcpReassemblySlot) :
    (slot.moved d).payload = slot.payload := by
  unfold TcpReassemblySlot.moved
  split_ifs <;> rfl

theorem TcpReassemblySlot.moved_sequenceNumber (d : BitVec 32) {slot : TcpReassemblySlot}
    (h : slot.used = true) : (slot.moved d).sequenceNumber = slot.sequenceNumber + d := by
  rw [TcpReassemblySlot.moved, if_pos h]

/-- The end of a slot moves with its beginning. -/
theorem TcpReassemblySlot.moved_slotEnd (d : BitVec 32) {slot : TcpReassemblySlot}
    (h : slot.used = true) : (slot.moved d).slotEnd = slot.slotEnd + d := by
  rw [TcpReassemblySlot.slotEnd, TcpReassemblySlot.moved_sequenceNumber d h,
    TcpReassemblySlot.moved_payload]
  exact add_right_comm slot.sequenceNumber d _

/-- Slots that are not used do not move. -/
theorem TcpReassemblySlot.moved_of_not_used (d : BitVec 32) {slot : TcpReassemblySlot}
    (h : slot.used = false) : slot.moved d = slot := by
  rw [TcpReassemblySlot.moved, if_neg (by rw [h]; exact Bool.false_ne_true)]

/-! ### The receive path -/

section ReceivePath

variable (m : TcpMove)

/-- Writing a slot. -/
theorem store_moved (connection : TcpConnection) (i : SlotIndex) (slot : TcpReassemblySlot)
    (n : ℕ) :
    { connection.moved m with
      reassembly :=
        Function.update (connection.moved m).reassembly i (slot.moved m.receive)
      reassemblyCount := n } =
      { connection with
        reassembly := Function.update connection.reassembly i slot
        reassemblyCount := n }.moved m := by
  have hslots : Function.update (connection.moved m).reassembly i (slot.moved m.receive) =
      fun j => (Function.update connection.reassembly i slot j).moved m.receive := by
    funext j
    by_cases hj : j = i
    · subst hj
      simp
    · simp [Function.update_of_ne hj, TcpConnection.moved]
  rw [hslots]
  rfl

/-- Appending bytes does not look at a sequence number. -/
theorem readyAppend_moved (connection : TcpConnection) (data : List UInt8) :
    readyAppend (connection.moved m) data =
      (readyAppend connection data).map (TcpConnection.moved m) := by
  unfold readyAppend
  have hready : (connection.moved m).receiveReady = connection.receiveReady := rfl
  rw [hready]
  split_ifs <;> rfl

theorem findFreeReassemblySlot_moved (connection : TcpConnection) :
    findFreeReassemblySlot (connection.moved m) = findFreeReassemblySlot connection := by
  simp [findFreeReassemblySlot, TcpConnection.moved]

/-- Whether a range is buffered is a comparison of differences, which a shift of all numbers
leaves alone. -/
theorem rangeAlreadyBuffered_moved (connection : TcpConnection) (start stop : BitVec 32) :
    rangeAlreadyBuffered (connection.moved m) (start + m.receive) (stop + m.receive) =
      rangeAlreadyBuffered connection start stop := by
  unfold rangeAlreadyBuffered
  congr 1
  funext i
  show (((connection.reassembly i).moved m.receive).used && _) = _
  cases hused : (connection.reassembly i).used with
  | false => simp [hused]
  | true =>
      simp [hused, TcpConnection.moved, TcpReassemblySlot.moved_sequenceNumber m.receive hused,
        TcpReassemblySlot.moved_slotEnd m.receive hused]

/-- A slot is filled with the shifted number, and the slot that is chosen is the same. -/
theorem bufferFuturePayload_moved (connection : TcpConnection) (sequenceNumber : BitVec 32)
    (payload : List UInt8) :
    bufferFuturePayload (connection.moved m) (sequenceNumber + m.receive) payload =
      (bufferFuturePayload connection sequenceNumber payload).map
        (TcpConnection.moved m) := by
  unfold bufferFuturePayload
  rw [add_right_comm sequenceNumber m.receive, rangeAlreadyBuffered_moved, findFreeReassemblySlot_moved]
  split_ifs
  · rfl
  · rfl
  · rfl
  · cases findFreeReassemblySlot connection with
    | none => rfl
    | some i =>
        exact congrArg some (store_moved m connection i ⟨true, sequenceNumber, payload⟩ _)

/-- Emptying a slot leaves the same slot behind, because a free slot is all zeros and is not
shifted. -/
theorem removeReassemblySlot_moved (connection : TcpConnection) (i : SlotIndex) :
    removeReassemblySlot (connection.moved m) i =
      (removeReassemblySlot connection i).moved m := by
  have hused : ((connection.moved m).reassembly i).used =
      (connection.reassembly i).used := TcpReassemblySlot.moved_used m.receive _
  unfold removeReassemblySlot
  rw [hused]
  cases (connection.reassembly i).used with
  | false => rfl
  | true => exact store_moved m connection i TcpReassemblySlot.zero _

/-- Taking bytes moves `receive_next` relative to where it is. -/
theorem advance_moved (connection : TcpConnection) (n : BitVec 32) :
    { connection.moved m with
      receiveNext := (connection.moved m).receiveNext + n } =
      { connection with receiveNext := connection.receiveNext + n }.moved m := by
  simp only [TcpConnection.moved, add_right_comm]

/-- What a scan of the slots leaves, with its connection moved. -/
def movedScan : Except TcpConnection (TcpConnection × Bool) →
    Except TcpConnection (TcpConnection × Bool)
  | .error connection => .error (connection.moved m)
  | .ok (connection, progress) => .ok (connection.moved m, progress)

/-- The loop body of the promotion takes the same branch: its comparisons and the overlap are
about differences to `receive_next`. -/
theorem promoteSlot_moved (connection : TcpConnection) (i : SlotIndex) :
    promoteSlot (connection.moved m) i =
      movedScan m (promoteSlot connection i) := by
  have hslot : (connection.moved m).reassembly i = (connection.reassembly i).moved m.receive :=
    rfl
  have hnext : (connection.moved m).receiveNext = connection.receiveNext + m.receive := rfl
  unfold promoteSlot
  dsimp only
  rw [hslot, hnext, TcpReassemblySlot.moved_used]
  cases hused : (connection.reassembly i).used with
  | false => rfl
  | true =>
      rw [TcpReassemblySlot.moved_slotEnd m.receive hused, TcpReassemblySlot.moved_sequenceNumber m.receive hused,
        TcpReassemblySlot.moved_payload, seqLe_moved, seqGt_moved, moved_sub_moved,
        removeReassemblySlot_moved, readyAppend_moved]
      simp only [Bool.not_true, Bool.false_eq_true, if_false]
      split_ifs
      · rfl
      · rfl
      · rfl
      · cases readyAppend connection _ with
        | none => rfl
        | some next =>
            simp only [Option.map_some, advance_moved, removeReassemblySlot_moved, movedScan]

/-- A scan, by induction on the slots still to come. -/
theorem promoteScan_moved (indices : List SlotIndex) (connection : TcpConnection)
    (progress : Bool) :
    promoteScan indices (connection.moved m) progress =
      movedScan m (promoteScan indices connection progress) := by
  induction indices generalizing connection progress with
  | nil => rfl
  | cons i rest ih =>
      rw [promoteScan, promoteScan, promoteSlot_moved]
      cases promoteSlot connection i with
      | error stopped => rfl
      | ok next => exact ih next.1 _

/-- All scans, by induction on the fuel. -/
theorem promoteWhile_moved (fuel : ℕ) (connection : TcpConnection) :
    promoteWhile fuel (connection.moved m) =
      match promoteWhile fuel connection with
      | .error stopped => .error (stopped.moved m)
      | .ok next => .ok (next.moved m) := by
  induction fuel generalizing connection with
  | zero => rfl
  | succ fuel ih =>
      rw [promoteWhile, promoteWhile, promoteScan_moved]
      cases promoteScan _ connection false with
      | error stopped => rfl
      | ok next =>
          obtain ⟨next, progress⟩ := next
          cases progress with
          | false => rfl
          | true => exact ih next

end ReceivePath

/-! ### Moved connections -/

/-- The second connection is the first one moved by `a` and `d`. -/
def TcpConnection.IsMoved (a d : BitVec 32) (connection other : TcpConnection) : Prop :=
  ∃ m : TcpMove, m.send = a ∧ m.receive = d ∧ other = connection.moved m

section IsMoved

variable {a d : BitVec 32} {connection other : TcpConnection}

/-- Whether the pending FIN is due compares two numbers that move together; if there is none, its
number is not looked at. -/
theorem pendingFinDue_moved (m : TcpMove) (connection : TcpConnection) :
    (connection.moved m).pendingFinDue = connection.pendingFinDue := by
  unfold TcpConnection.pendingFinDue TcpConnection.moved
  cases connection.pendingFin with
  | false => rfl
  | true => simp [Bool.beq_eq_decide_eq]

/-- A pending FIN is consumed in both runs or in neither. -/
theorem TcpConnection.IsMoved.consumePendingFin (h : connection.IsMoved a d other) :
    (consumePendingFin connection).IsMoved a d (consumePendingFin other) := by
  obtain ⟨m, rfl, rfl, rfl⟩ := h
  rw [consumePendingFin_eq, consumePendingFin_eq, pendingFinDue_moved]
  cases hdue : connection.pendingFinDue with
  | false => exact ⟨m, rfl, rfl, rfl⟩
  | true =>
      refine ⟨{ m with pendingFinSequence := connection.pendingFinSequence + m.receive },
        rfl, rfl, ?_⟩
      rw [TcpConnection.pendingFinDue, Bool.and_eq_true] at hdue
      simp [TcpConnection.moved, hdue.1, add_right_comm]

/-- `promote_reassembly` returns the same in both runs. -/
theorem TcpConnection.IsMoved.promoteReassembly (h : connection.IsMoved a d other) :
    (promoteReassembly other).1 = (promoteReassembly connection).1 ∧
      (promoteReassembly connection).2.IsMoved a d (promoteReassembly other).2 := by
  obtain ⟨m, rfl, rfl, rfl⟩ := h
  unfold Netstack.promoteReassembly promoteLoop
  rw [promoteWhile_moved]
  cases promoteWhile _ connection with
  | error stopped => exact ⟨rfl, m, rfl, rfl, rfl⟩
  | ok next => exact ⟨rfl, IsMoved.consumePendingFin ⟨m, rfl, rfl, rfl⟩⟩

/-- **The payload.**  Both runs take, hold back, drop or refuse the same bytes. -/
theorem TcpConnection.IsMoved.processPayload (h : connection.IsMoved a d other)
    (segment : TcpSegment) (y : BitVec 32) :
    (processPayload other (segment.moved d y)).1 = (processPayload connection segment).1 ∧
      (processPayload connection segment).2.IsMoved a d
        (processPayload other (segment.moved d y)).2 := by
  obtain ⟨m, rfl, rfl, rfl⟩ := h
  have hnext : (connection.moved m).receiveNext = connection.receiveNext + m.receive := rfl
  have hpayload : (segment.moved m.receive y).payload = segment.payload := rfl
  have hsequence : (segment.moved m.receive y).sequenceNumber =
      segment.sequenceNumber + m.receive := rfl
  unfold Netstack.processPayload
  dsimp only
  rw [hnext, hpayload, hsequence, TcpSegment.moved_payloadEnd, seqLe_moved, seqGt_moved,
    moved_sub_moved, bufferFuturePayload_moved, readyAppend_moved]
  split_ifs
  · exact ⟨rfl, m, rfl, rfl, rfl⟩
  · exact ⟨rfl, m, rfl, rfl, rfl⟩
  · cases bufferFuturePayload connection _ _ with
    | none => exact ⟨rfl, m, rfl, rfl, rfl⟩
    | some next => exact ⟨rfl, m, rfl, rfl, rfl⟩
  · exact ⟨rfl, m, rfl, rfl, rfl⟩
  · cases readyAppend connection _ with
    | none => exact ⟨rfl, m, rfl, rfl, rfl⟩
    | some next =>
        simp only [Option.map_some]
        rw [advance_moved]
        exact IsMoved.promoteReassembly ⟨m, rfl, rfl, rfl⟩

/-- The FIN is due, ahead or behind in both runs alike, and a FIN that becomes the pending one is
remembered with its shifted number. -/
theorem TcpConnection.IsMoved.processFin (h : connection.IsMoved a d other)
    (segment : TcpSegment) (y : BitVec 32) :
    (processFin connection segment).IsMoved a d (processFin other (segment.moved d y)) := by
  obtain ⟨m, rfl, rfl, rfl⟩ := h
  have hnext : (connection.moved m).receiveNext = connection.receiveNext + m.receive := rfl
  have hpending : (connection.moved m).pendingFin = connection.pendingFin := rfl
  have hfirst : (!connection.pendingFin ||
      seqLt (segment.payloadEnd + m.receive) (connection.moved m).pendingFinSequence) =
        (!connection.pendingFin ||
          seqLt segment.payloadEnd connection.pendingFinSequence) := by
    cases hwas : connection.pendingFin with
    | false => rw [Bool.not_false, Bool.true_or, Bool.true_or]
    | true => simp [TcpConnection.moved, hwas]
  unfold Netstack.processFin
  dsimp only
  rw [TcpSegment.moved_hasFlag, TcpSegment.moved_payloadEnd, hnext, hpending, hfirst, seqGt_moved]
  simp only [add_left_inj]
  split_ifs
  · exact ⟨m, rfl, rfl, rfl⟩
  · exact ⟨m, rfl, rfl, by simp only [TcpConnection.moved, add_right_comm]⟩
  · exact ⟨m, rfl, rfl, rfl⟩
  · exact ⟨m, rfl, rfl, rfl⟩
  · exact ⟨m, rfl, rfl, rfl⟩

/-- The closing checks compare two numbers of the send side. -/
theorem TcpConnection.IsMoved.finishClose (h : connection.IsMoved a d other) :
    (finishClose connection).IsMoved a d (finishClose other) := by
  obtain ⟨m, rfl, rfl, rfl⟩ := h
  have hstate : (connection.moved m).state = connection.state := rfl
  have hsent : (connection.moved m).sendUnacknowledged = (connection.moved m).sendNext ↔
      connection.sendUnacknowledged = connection.sendNext := add_left_inj m.send
  unfold Netstack.finishClose
  simp only [hstate, hsent]
  split_ifs
  · exact ⟨m, rfl, rfl, rfl⟩
  · exact ⟨{ m with lastSegment := (connection.moved m).lastSegment }, rfl, rfl, rfl⟩
  · exact ⟨m, rfl, rfl, rfl⟩

theorem TcpConnection.IsMoved.clearReassembly (h : connection.IsMoved a d other) :
    (clearReassembly connection).IsMoved a d (clearReassembly other) := by
  obtain ⟨m, rfl, rfl, rfl⟩ := h
  exact ⟨{ m with pendingFinSequence := 0 }, rfl, rfl, rfl⟩

/-- An acknowledgment is compared with the numbers of the send side, which are shifted by as
much. -/
theorem acceptsAck_moved (m : TcpMove) (connection : TcpConnection) (segment : TcpSegment)
    (x : BitVec 32) :
    (connection.moved m).acceptsAck (segment.moved x m.send) = connection.acceptsAck segment := by
  have hsent : ((segment.moved x m.send).acknowledgmentNumber =
      segment.acknowledgmentNumber + m.send) ∧ ((connection.moved m).sendUnacknowledged =
        connection.sendUnacknowledged + m.send) ∧
          (connection.moved m).sendNext = connection.sendNext + m.send := ⟨rfl, rfl, rfl⟩
  unfold TcpConnection.acceptsAck
  rw [hsent.1, hsent.2.1, hsent.2.2, seqGt_moved, seqLe_moved, TcpSegment.moved_hasFlag]

/-- **The acknowledgment.**  It does not look at the sequence number of the segment. -/
theorem TcpConnection.IsMoved.afterAck (h : connection.IsMoved a d other) (segment : TcpSegment)
    (x : BitVec 32) :
    (connection.afterAck segment).IsMoved a d (other.afterAck (segment.moved x a)) := by
  obtain ⟨m, rfl, rfl, rfl⟩ := h
  have hall : (segment.moved x m.send).acknowledgmentNumber = (connection.moved m).sendNext ↔
      segment.acknowledgmentNumber = connection.sendNext := add_left_inj m.send
  simp only [TcpConnection.afterAck_eq, acceptsAck_moved, hall]
  split_ifs
  · exact ⟨{ m with lastSegment := (connection.moved m).lastSegment }, rfl, rfl, rfl⟩
  · exact ⟨m, rfl, rfl, rfl⟩
  · exact ⟨m, rfl, rfl, rfl⟩

theorem TcpConnection.IsMoved.state (h : connection.IsMoved a d other) :
    other.state = connection.state := by
  obtain ⟨m, -, -, rfl⟩ := h
  rfl

/-- The ports are not shifted. -/
theorem TcpConnection.IsMoved.addressedBy (h : connection.IsMoved a d other)
    (segment : TcpSegment) (x y : BitVec 32) :
    other.addressedBy (segment.moved x y) = connection.addressedBy segment := by
  obtain ⟨m, -, -, rfl⟩ := h
  rfl

/-- A reset forgets everything that the numbers are compared with. -/
theorem TcpConnection.IsMoved.aborted (h : connection.IsMoved a d other) :
    connection.aborted.IsMoved a d other.aborted := by
  obtain ⟨m, rfl, rfl, rfl⟩ := h
  exact ⟨{ m with lastSegment := (connection.moved m).lastSegment, pendingFinSequence := 0 },
    rfl, rfl, rfl⟩

/-- **A segment on a connection that receives.** -/
theorem TcpConnection.IsMoved.onSegment (h : connection.IsMoved a d other)
    (segment : TcpSegment) (hrec : connection.state.receives = true) :
    (tcpConnectionOnSegment other (segment.moved d a)).1 =
        (tcpConnectionOnSegment connection segment).1 ∧
      (tcpConnectionOnSegment connection segment).2.IsMoved a d
        (tcpConnectionOnSegment other (segment.moved d a)).2 := by
  have hack := h.afterAck segment d
  have hpayload := hack.processPayload segment a
  have hsynSent := TcpConnectionState.ne_synSent_of_receives hrec
  unfold tcpConnectionOnSegment
  simp only [h.addressedBy, TcpSegment.moved_hasFlag, TcpConnection.afterAck_state, h.state,
    if_neg hsynSent, hrec, Bool.not_true, Bool.false_eq_true, if_false]
  rw [hpayload.1]
  split_ifs
  · exact ⟨rfl, h⟩
  · exact ⟨rfl, h.aborted⟩
  · exact ⟨rfl, hpayload.2⟩
  · exact ⟨rfl, ((hpayload.2.processFin segment a).consumePendingFin).finishClose⟩

/-- Nothing of the peer's direction is held. -/
def TcpConnection.HoldsNothing (connection : TcpConnection) : Prop :=
  connection.pendingFin = false ∧ ∀ i, (connection.reassembly i).used = false

/-- The first number of the peer fixes by how much its direction is moved. -/
theorem TcpConnection.IsMoved.opened (h : connection.IsMoved a d other) {b : BitVec 32}
    (hfirst : d = b ∨ connection.HoldsNothing) (segment : TcpSegment) (y : BitVec 32) :
    (connection.opened segment).IsMoved a b (other.opened (segment.moved b y)) := by
  obtain ⟨m, rfl, rfl, rfl⟩ := h
  have hnext : segment.sequenceNumber + b + 1#32 = segment.sequenceNumber + 1#32 + b :=
    add_right_comm ..
  rcases hfirst with rfl | ⟨hpending, hslots⟩
  · refine ⟨{ m with lastSegment := (connection.moved m).lastSegment }, rfl, rfl, ?_⟩
    exact congrArg (fun x => { ((connection.opened segment).moved
      { m with lastSegment := (connection.moved m).lastSegment }) with receiveNext := x }) hnext
  · refine ⟨{ m with receive := b, lastSegment := (connection.moved m).lastSegment },
      rfl, rfl, ?_⟩
    simp [TcpConnection.moved, TcpConnection.opened, TcpSegment.moved, hnext, hpending,
      TcpReassemblySlot.moved_of_not_used, hslots]

/-- **The handshake.**  It compares acknowledgment numbers only. -/
theorem TcpConnection.IsMoved.processHandshake (h : connection.IsMoved a d other)
    {b : BitVec 32} (hfirst : d = b ∨ connection.HoldsNothing) (segment : TcpSegment) :
    (processHandshake other (segment.moved b a)).1 = (processHandshake connection segment).1 ∧
      (processHandshake connection segment).2.IsMoved a
        (if (processHandshake connection segment).1 = 1 then b else d)
        (processHandshake other (segment.moved b a)).2 := by
  have hflags : (segment.moved b a).flags = segment.flags := rfl
  have hnumber : (segment.moved b a).acknowledgmentNumber ≠ other.sendNext ↔
      segment.acknowledgmentNumber ≠ connection.sendNext := by
    obtain ⟨m, rfl, -, rfl⟩ := h
    exact not_congr (add_left_inj m.send)
  unfold Netstack.processHandshake
  simp only [hflags, hnumber]
  by_cases hsyn : segment.flags &&& (tcpFlagSyn ||| tcpFlagAck) = tcpFlagSyn ||| tcpFlagAck
  · by_cases hack : segment.acknowledgmentNumber ≠ connection.sendNext
    · simp only [if_pos hsyn, if_pos hack]
      exact ⟨trivial, h⟩
    · simp only [if_pos hsyn, if_neg hack]
      exact ⟨trivial, h.opened hfirst segment a⟩
  · simp only [if_neg hsyn]
    exact ⟨trivial, h⟩

/-- **A segment on a connection that does not receive**, where the move of the peer's direction
may still be open. -/
theorem TcpConnection.IsMoved.onSegment_of_not_receives (h : connection.IsMoved a d other)
    {b : BitVec 32} (hfirst : d = b ∨ connection.HoldsNothing) (segment : TcpSegment)
    (hrec : connection.state.receives = false) :
    (tcpConnectionOnSegment other (segment.moved b a)).1 =
        (tcpConnectionOnSegment connection segment).1 ∧
      (tcpConnectionOnSegment connection segment).2.IsMoved a
        (if (tcpConnectionOnSegment connection segment).1 = 1 then b else d)
        (tcpConnectionOnSegment other (segment.moved b a)).2 := by
  have hack := h.afterAck segment b
  have hholds : (connection.afterAck segment).HoldsNothing ↔ connection.HoldsNothing := by
    rw [TcpConnection.HoldsNothing, TcpConnection.afterAck_pendingFin,
      TcpConnection.afterAck_reassembly, TcpConnection.HoldsNothing]
  unfold tcpConnectionOnSegment
  simp only [h.addressedBy, TcpSegment.moved_hasFlag, TcpConnection.afterAck_state, h.state, hrec,
    Bool.not_false, if_true]
  by_cases hports : (!connection.addressedBy segment) = true
  · simp only [if_pos hports]
    exact ⟨trivial, h⟩
  by_cases hrst : segment.hasFlag tcpFlagRst = true
  · simp only [if_neg hports, if_pos hrst]
    exact ⟨trivial, h.aborted⟩
  by_cases hstate : connection.state = .synSent
  · simp only [if_neg hports, if_neg hrst, if_pos hstate]
    exact hack.processHandshake (hfirst.imp_right hholds.2) segment
  · simp only [if_neg hports, if_neg hrst, if_neg hstate]
    exact ⟨trivial, hack⟩

/-! ### The other calls -/

/-- `tcp_build` stores the numbers that it is given. -/
theorem tcpBuild_moved (sp dp : BitVec 16) (seq ack : BitVec 32) (flags : BitVec 8)
    (window : BitVec 16) (payload : List UInt8) (x y : BitVec 32) :
    tcpBuild sp dp (seq + x) (ack + y) flags window payload =
      (tcpBuild sp dp seq ack flags window payload).map (TcpSegment.moved x y) := by
  unfold tcpBuild
  split_ifs <;> rfl

/-- Sending a segment of `n` sequence numbers. -/
theorem TcpConnection.IsMoved.sent (h : connection.IsMoved a d other) (segment : TcpSegment)
    (e n : BitVec 32) (state : TcpConnectionState) :
    (rememberForRetransmission { connection with
        sendUnacknowledged := connection.sendNext
        sendNext := connection.sendNext + n
        state } segment).IsMoved a d
      (rememberForRetransmission { other with
        sendUnacknowledged := other.sendNext
        sendNext := other.sendNext + n
        state } (segment.moved a e)) := by
  obtain ⟨m, rfl, rfl, rfl⟩ := h
  have hnext : connection.sendNext + m.send + n = connection.sendNext + n + m.send :=
    add_right_comm ..
  refine ⟨{ m with ack := e }, rfl, rfl, ?_⟩
  unfold rememberForRetransmission TcpConnection.moved
  dsimp only
  rw [hnext, if_pos rfl]

/-- What a call emits in the two runs. -/
structure TcpEmission.IsMoved (a d e : BitVec 32) (emission other : TcpEmission) : Prop where
  result : other.result = emission.result
  connection : emission.connection.IsMoved a d other.connection
  segment : other.segment = emission.segment.map (TcpSegment.moved a e)

/-- **The SYN.**  Its acknowledgment number is `0` in both runs. -/
theorem TcpConnection.IsMoved.buildSyn (h : connection.IsMoved a d other) (window : BitVec 16) :
    (tcpConnectionBuildSyn connection window).IsMoved a d 0
      (tcpConnectionBuildSyn other window) := by
  have hbuild : tcpBuild other.localPort other.remotePort other.sendNext 0 tcpFlagSyn window [] =
      (tcpBuild connection.localPort connection.remotePort connection.sendNext 0 tcpFlagSyn
        window []).map (TcpSegment.moved a 0) := by
    obtain ⟨m, rfl, -, rfl⟩ := h
    exact tcpBuild_moved _ _ connection.sendNext 0 _ _ _ m.send 0
  unfold tcpConnectionBuildSyn
  rw [h.state, hbuild]
  split_ifs
  · exact ⟨rfl, h, rfl⟩
  · cases tcpBuild connection.localPort _ _ _ _ _ _ with
    | none => exact ⟨rfl, h, rfl⟩
    | some segment => exact ⟨rfl, h.sent segment 0 1 .synSent, rfl⟩

/-- What acknowledges the peer is built from `send_next` and `receive_next`. -/
theorem TcpConnection.IsMoved.tcpBuild (h : connection.IsMoved a d other) (flags : BitVec 8)
    (window : BitVec 16) (payload : List UInt8) :
    tcpBuild other.localPort other.remotePort other.sendNext other.receiveNext flags window
        payload =
      (tcpBuild connection.localPort connection.remotePort connection.sendNext
        connection.receiveNext flags window payload).map (TcpSegment.moved a d) := by
  obtain ⟨m, rfl, rfl, rfl⟩ := h
  exact tcpBuild_moved ..

/-- A data segment is built in both runs or in neither, with the same payload at the shifted
number. -/
theorem TcpConnection.IsMoved.buildData (h : connection.IsMoved a d other)
    (payload : List UInt8) (window : BitVec 16) :
    (tcpConnectionBuildData connection payload window).IsMoved a d d
      (tcpConnectionBuildData other payload window) := by
  unfold tcpConnectionBuildData
  rw [h.state, h.tcpBuild]
  split_ifs
  · exact ⟨rfl, h, rfl⟩
  · cases Netstack.tcpBuild connection.localPort _ _ _ _ _ _ with
    | none => exact ⟨rfl, h, rfl⟩
    | some segment => exact ⟨rfl, h.state ▸ h.sent segment d _ other.state, rfl⟩

/-- The same for the FIN. -/
theorem TcpConnection.IsMoved.buildFin (h : connection.IsMoved a d other) (window : BitVec 16) :
    (tcpConnectionBuildFin connection window).IsMoved a d d
      (tcpConnectionBuildFin other window) := by
  unfold tcpConnectionBuildFin
  rw [h.state, h.tcpBuild]
  split_ifs with hrefused
  · exact ⟨rfl, h, rfl⟩
  all_goals
    cases Netstack.tcpBuild connection.localPort _ _ _ _ _ _ with
    | none => exact ⟨rfl, h, rfl⟩
    | some segment => exact ⟨rfl, h.sent segment d 1 _, rfl⟩

/-- The timer knows no sequence numbers. -/
theorem TcpConnection.IsMoved.timed (h : connection.IsMoved a d other)
    (elapsed count timeout : BitVec 32) :
    (connection.timed elapsed count timeout).IsMoved a d (other.timed elapsed count timeout) := by
  obtain ⟨m, rfl, rfl, rfl⟩ := h
  exact ⟨m, rfl, rfl, rfl⟩

theorem TcpConnection.IsMoved.givenUp (h : connection.IsMoved a d other) (elapsed : BitVec 32) :
    (connection.givenUp elapsed).IsMoved a d (other.givenUp elapsed) := by
  obtain ⟨m, rfl, rfl, rfl⟩ := h
  exact ⟨{ m with lastSegment := (connection.moved m).lastSegment }, rfl, rfl, rfl⟩

/-- A tick as a choice between four outcomes, where the connections are written out. -/
theorem tick_eq (connection : TcpConnection) (elapsedMs : BitVec 32) :
    tcpConnectionTick connection elapsedMs =
      if !connection.hasRetransmitSegment then ⟨0, connection, none⟩
      else if addElapsed elapsedMs connection.retransmitElapsedMs <
          connection.retransmitTimeoutMs then
        ⟨0, connection.timed (addElapsed elapsedMs connection.retransmitElapsedMs)
          connection.retransmitCount connection.retransmitTimeoutMs, none⟩
      else if connection.retransmitCount ≥ connection.retransmitLimit then
        ⟨-1, connection.givenUp (addElapsed elapsedMs connection.retransmitElapsedMs), none⟩
      else
        ⟨1, connection.timed 0 (connection.retransmitCount + 1)
          (backoff connection.retransmitTimeoutMs), some connection.lastSegment⟩ := rfl

/-- **The timer.**  What is sent again was moved when it was built. -/
theorem TcpConnection.IsMoved.tick (h : connection.IsMoved a d other) (elapsedMs : BitVec 32) :
    ∃ e, (tcpConnectionTick connection elapsedMs).IsMoved a d e
      (tcpConnectionTick other elapsedMs) := by
  have hgivenUp := h.givenUp
  have htimed := h.timed
  obtain ⟨m, rfl, -, hother⟩ := id h
  have htimer : other.hasRetransmitSegment = connection.hasRetransmitSegment ∧
      other.retransmitElapsedMs = connection.retransmitElapsedMs ∧
      other.retransmitTimeoutMs = connection.retransmitTimeoutMs ∧
      other.retransmitCount = connection.retransmitCount ∧
      other.retransmitLimit = connection.retransmitLimit := by
    rw [hother]
    exact ⟨rfl, rfl, rfl, rfl, rfl⟩
  have hlast : connection.hasRetransmitSegment = true →
      other.lastSegment = connection.lastSegment.moved m.send m.ack := fun harmed => by
    rw [hother]
    exact if_pos harmed
  refine ⟨m.ack, ?_⟩
  simp only [tick_eq, htimer]
  split_ifs with hidle
  · exact ⟨rfl, h, rfl⟩
  · exact ⟨rfl, htimed .., rfl⟩
  · exact ⟨rfl, hgivenUp _, rfl⟩
  · exact ⟨rfl, htimed .., congrArg some (hlast (by simpa using hidle))⟩

/-- A read returns the same bytes in both runs. -/
theorem TcpConnection.IsMoved.read (h : connection.IsMoved a d other) (bufferLen : ℕ) :
    (tcpConnectionRead other bufferLen).1 = (tcpConnectionRead connection bufferLen).1 ∧
      (tcpConnectionRead connection bufferLen).2.IsMoved a d
        (tcpConnectionRead other bufferLen).2 := by
  obtain ⟨m, rfl, rfl, rfl⟩ := h
  have hready : (connection.moved m).receiveReady = connection.receiveReady := rfl
  unfold tcpConnectionRead
  simp only [hready]
  split_ifs
  · exact ⟨rfl, m, rfl, rfl, rfl⟩
  · exact ⟨rfl, m, rfl, rfl, rfl⟩
  · exact ⟨rfl, m, rfl, rfl, rfl⟩

end IsMoved

/-! ### Before the handshake -/

/-- Nothing has come from the peer, and no payload is taken. -/
def TcpConnection.Waits (connection : TcpConnection) : Prop :=
  connection.state.receives = false ∧ connection.HoldsNothing

/-- A connection that waits for its SYN-ACK goes on waiting through every segment that does not
complete the handshake; what it has as `receive_next` is not looked at until then. -/
theorem TcpConnection.Waits.onSegment {connection : TcpConnection} (h : connection.Waits)
    {segment : TcpSegment} (hnot : (tcpConnectionOnSegment connection segment).1 ≠ 1) :
    (tcpConnectionOnSegment connection segment).2.Waits := by
  have hack : (connection.afterAck segment).Waits := by
    rw [TcpConnection.Waits, TcpConnection.HoldsNothing, TcpConnection.afterAck_state,
      TcpConnection.afterAck_pendingFin, TcpConnection.afterAck_reassembly]
    exact h
  revert hnot
  unfold tcpConnectionOnSegment
  simp only [TcpConnection.afterAck_state, h.1, Bool.not_false, if_true, processHandshake]
  split_ifs
  · exact fun _ => h
  · exact fun _ => ⟨rfl, rfl, fun _ => rfl⟩
  · exact fun _ => hack
  · exact fun hnot => absurd rfl hnot
  · exact fun _ => hack
  · exact fun _ => hack

/-- No other call ends the waiting, but for the timer, which may give up; the cases are those of
the seven calls. -/
theorem TcpConnection.Waits.effect {connection : TcpConnection} (h : connection.Waits)
    {op : TcpOp} (hne : ∀ segment, op ≠ .onSegment segment) : (op.effect connection).Waits := by
  cases op with
  | onSegment segment => exact absurd rfl (hne segment)
  | buildAck => exact h
  | read bufferLen =>
      rw [TcpOp.effect, read_eq]
      exact h
  | buildSyn window =>
      rw [TcpOp.effect]
      rcases buildSyn_cases connection window with ⟨-, heq⟩ | ⟨-, segment, -, heq⟩ <;> rw [heq]
      · exact h
      · exact ⟨rfl, h.2⟩
  | buildData payload window =>
      rw [TcpOp.effect]
      rcases buildData_cases connection payload window with ⟨-, heq⟩ | ⟨hstate, -⟩
      · rw [heq]
        exact h
      · have hrec := h.1
        rw [hstate] at hrec
        exact absurd hrec.symm Bool.false_ne_true
  | buildFin window =>
      rw [TcpOp.effect]
      rcases buildFin_cases connection window with ⟨-, -, heq⟩ | ⟨_, ⟨hstate, -⟩ | ⟨hstate, -⟩, -⟩
      · rw [heq]
        exact h
      all_goals
        have hrec := h.1
        rw [hstate] at hrec
        exact absurd hrec.symm Bool.false_ne_true
  | tick elapsedMs =>
      rw [TcpOp.effect]
      rcases tick_connection connection elapsedMs with ⟨_, _, _, heq⟩ | ⟨_, heq⟩ <;> rw [heq]
      · exact h
      · exact ⟨rfl, h.2⟩

/-! ### Runs -/

/-- The call with `x` added to the sequence number of an incoming segment and `y` to its
acknowledgment number. -/
def TcpOp.moved (x y : BitVec 32) : TcpOp → TcpOp
  | .onSegment segment => .onSegment (segment.moved x y)
  | op => op

/-- The call completes a handshake. -/
def TcpOp.completes (connection : TcpConnection) : TcpOp → Bool
  | .onSegment segment => (tcpConnectionOnSegment connection segment).1 == 1
  | _ => false

/-- What a call hands to its caller: its return value, the segment it wrote and the bytes. -/
structure TcpOutput where
  result : ℤ
  segment : Option TcpSegment
  bytes : List UInt8

/-- What the caller of a call sees. -/
def TcpOp.output (connection : TcpConnection) : TcpOp → TcpOutput
  | .buildSyn window =>
    ⟨(tcpConnectionBuildSyn connection window).result,
      (tcpConnectionBuildSyn connection window).segment, []⟩
  | .onSegment segment => ⟨(tcpConnectionOnSegment connection segment).1, none, []⟩
  | .buildAck window =>
    ⟨if (tcpConnectionBuildAck connection window).isSome then 0 else -1,
      tcpConnectionBuildAck connection window, []⟩
  | .buildData payload window =>
    ⟨(tcpConnectionBuildData connection payload window).result,
      (tcpConnectionBuildData connection payload window).segment, []⟩
  | .buildFin window =>
    ⟨(tcpConnectionBuildFin connection window).result,
      (tcpConnectionBuildFin connection window).segment, []⟩
  | .tick elapsedMs =>
    ⟨(tcpConnectionTick connection elapsedMs).result,
      (tcpConnectionTick connection elapsedMs).segment, []⟩
  | .read bufferLen =>
    ⟨(tcpConnectionRead connection bufferLen).1.length, none,
      (tcpConnectionRead connection bufferLen).1⟩

/-- A connection, and whether a handshake was completed before. -/
structure TcpDialogue where
  connection : TcpConnection
  opened : Bool

/-- A connection after `tcp_connection_init`. -/
def TcpDialogue.init (localPort remotePort : BitVec 16) (initialSequence : BitVec 32) :
    TcpDialogue := ⟨tcpConnectionInit localPort remotePort initialSequence, false⟩

/-- One call. -/
def TcpDialogue.step (dialogue : TcpDialogue) (op : TcpOp) : TcpDialogue :=
  ⟨op.effect dialogue.connection, dialogue.opened || op.completes dialogue.connection⟩

/-- **One run is the other one moved.**  What the two connections have in common, and by how
much their sequence numbers differ. -/
structure TcpDialogue.Moved (a b : BitVec 32) (first second : TcpDialogue) : Prop where
  opened : second.opened = first.opened
  state : second.connection.state = first.connection.state
  readable : tcpConnectionReadable second.connection = tcpConnectionReadable first.connection
  receiveReady : second.connection.receiveReady = first.connection.receiveReady
  reassemblyCount : tcpConnectionReassemblyCount second.connection =
    tcpConnectionReassemblyCount first.connection
  used : ∀ i, (second.connection.reassembly i).used = (first.connection.reassembly i).used
  payload : ∀ i, (second.connection.reassembly i).payload =
    (first.connection.reassembly i).payload
  remoteWindow : second.connection.remoteWindow = first.connection.remoteWindow
  armed : second.connection.hasRetransmitSegment = first.connection.hasRetransmitSegment
  elapsed : second.connection.retransmitElapsedMs = first.connection.retransmitElapsedMs
  timeout : second.connection.retransmitTimeoutMs = first.connection.retransmitTimeoutMs
  count : second.connection.retransmitCount = first.connection.retransmitCount
  limit : second.connection.retransmitLimit = first.connection.retransmitLimit
  pendingFin : second.connection.pendingFin = first.connection.pendingFin
  sendUnacknowledged :
    second.connection.sendUnacknowledged = first.connection.sendUnacknowledged + a
  sendNext : second.connection.sendNext = first.connection.sendNext + a
  receiveNext : first.opened = true →
    second.connection.receiveNext = first.connection.receiveNext + b
  slots : first.opened = true → ∀ i, (first.connection.reassembly i).used = true →
    (second.connection.reassembly i).sequenceNumber =
      (first.connection.reassembly i).sequenceNumber + b
  pendingFinSequence : first.opened = true → first.connection.pendingFin = true →
    second.connection.pendingFinSequence = first.connection.pendingFinSequence + b

/-- The call builds a segment that acknowledges `receive_next`. -/
def TcpOp.acknowledges : TcpOp → Bool
  | .buildAck _ | .buildData .. | .buildFin _ => true
  | .buildSyn _ | .onSegment _ | .tick _ | .read _ => false

/-- **What a call returns in the two runs.**  Every segment that is built or sent again is the
other one with `a` added to its sequence number; its acknowledgment number differs by `b`
once a handshake was completed, and is `0` on a SYN in both. -/
structure TcpOutput.Moved (a b : BitVec 32) (opened : Bool) (op : TcpOp)
    (first second : TcpOutput) : Prop where
  result : second.result = first.result
  bytes : second.bytes = first.bytes
  segment : ∃ e, second.segment = first.segment.map (TcpSegment.moved a e)
  acknowledgment : opened = true → op.acknowledges = true →
    second.segment = first.segment.map (TcpSegment.moved a b)
  syn : ∀ window, op = .buildSyn window →
    second.segment = first.segment.map (TcpSegment.moved a 0) ∧
      ∀ segment, first.segment = some segment → segment.acknowledgmentNumber = 0

/-- `tcp_connection_build_syn` passes the constant `0`. -/
theorem acknowledgmentNumber_of_buildSyn {connection : TcpConnection} {window : BitVec 16}
    {segment : TcpSegment} (h : (tcpConnectionBuildSyn connection window).segment = some segment) :
    segment.acknowledgmentNumber = 0 := by
  rcases buildSyn_cases connection window with ⟨-, heq⟩ | ⟨-, -, -, -⟩
  · rw [heq] at h
    cases h
  · unfold tcpConnectionBuildSyn at h
    split_ifs at h
    cases h
    rfl

/-- The relation that every call keeps. -/
def TcpDialogue.Related (a b : BitVec 32) (first second : TcpDialogue) : Prop :=
  second.opened = first.opened ∧
    first.connection.IsMoved a (if first.opened then b else 0) second.connection ∧
    (first.opened = false → first.connection.Waits)

section Related

variable {a b : BitVec 32} {first second : TcpDialogue}

/-- What is related has said the same, up to the shift. -/
theorem TcpDialogue.Related.moved (h : first.Related a b second) : first.Moved a b second := by
  obtain ⟨hopened, ⟨m, rfl, hreceive, hmoved⟩, -⟩ := h
  have hb : first.opened = true → m.receive = b := fun hwas => hreceive.trans (if_pos hwas)
  cases second
  dsimp only at hopened hmoved
  subst hmoved
  exact {
    opened := hopened, state := rfl, readable := rfl, receiveReady := rfl
    reassemblyCount := rfl, remoteWindow := rfl, armed := rfl, elapsed := rfl, timeout := rfl
    count := rfl, limit := rfl, pendingFin := rfl, sendUnacknowledged := rfl, sendNext := rfl
    used := fun i => TcpReassemblySlot.moved_used _ _
    payload := fun i => TcpReassemblySlot.moved_payload _ _
    receiveNext := fun hwas => hb hwas ▸ rfl
    slots := fun hwas i hused => hb hwas ▸ TcpReassemblySlot.moved_sequenceNumber _ hused
    pendingFinSequence := fun hwas hpending => hb hwas ▸ if_pos hpending }

/-- **A segment in the two runs.** -/
theorem TcpDialogue.Related.onSegment (h : first.Related a b second) (segment : TcpSegment) :
    (tcpConnectionOnSegment second.connection (segment.moved b a)).1 =
        (tcpConnectionOnSegment first.connection segment).1 ∧
      (tcpConnectionOnSegment first.connection segment).2.IsMoved a
        (if (first.step (.onSegment segment)).opened then b else 0)
        (tcpConnectionOnSegment second.connection (segment.moved b a)).2 := by
  obtain ⟨-, hmoved, hwaits⟩ := h
  show _ ∧ TcpConnection.IsMoved a (if (first.opened || _ == 1) = true then b else 0) _ _
  cases hopened : first.opened with
  | false =>
      rw [if_neg (by rw [hopened]; exact Bool.false_ne_true)] at hmoved
      have hfirst : 0 = b ∨ first.connection.HoldsNothing := Or.inr (hwaits hopened).2
      simpa using hmoved.onSegment_of_not_receives hfirst segment (hwaits hopened).1
  | true =>
      rw [if_pos hopened] at hmoved
      cases hrec : first.connection.state.receives with
      | true => simpa using hmoved.onSegment segment hrec
      | false => simpa using hmoved.onSegment_of_not_receives (Or.inl rfl) segment hrec

/-- **The simulation step.** A call and its shifted counterpart lead from related connections to
related ones. Before the handshake the numbers of the receive side need not be shifted yet; the
SYN-ACK is where they become so. -/
theorem TcpDialogue.Related.step (h : first.Related a b second) (op : TcpOp) :
    (first.step op).Related a b (second.step (op.moved b a)) := by
  by_cases hop : ∃ segment, op = .onSegment segment
  · obtain ⟨segment, rfl⟩ := hop
    obtain ⟨hresult, hmoved⟩ := h.onSegment segment
    refine ⟨?_, hmoved, fun hnot => ?_⟩
    · show (second.opened || _ == 1) = (first.opened || _ == 1)
      rw [h.1, hresult]
    · have hboth : first.opened = false ∧
          (tcpConnectionOnSegment first.connection segment).1 ≠ 1 := by
        simpa [TcpDialogue.step, TcpOp.completes] using hnot
      exact (h.2.2 hboth.1).onSegment hboth.2
  · have hne : ∀ segment, op ≠ .onSegment segment := fun segment heq => hop ⟨segment, heq⟩
    have hsame : (first.step op).opened = first.opened ∧
        (second.step (op.moved b a)).opened = second.opened := by
      cases op with
      | onSegment segment => exact absurd rfl (hne segment)
      | buildSyn | buildAck | buildData | buildFin | tick | read =>
          exact ⟨Bool.or_false _, Bool.or_false _⟩
    refine ⟨by rw [hsame.1, hsame.2, h.1], ?_, fun hnot => ?_⟩
    · rw [hsame.1]
      cases op with
      | onSegment segment => exact absurd rfl (hne segment)
      | buildSyn window => exact (h.2.1.buildSyn window).connection
      | buildAck window => exact h.2.1
      | buildData payload window => exact (h.2.1.buildData payload window).connection
      | buildFin window => exact (h.2.1.buildFin window).connection
      | tick elapsedMs => exact (h.2.1.tick elapsedMs).choose_spec.connection
      | read bufferLen => exact (h.2.1.read bufferLen).2
    · rw [hsame.1] at hnot
      exact (h.2.2 hnot).effect hne

/-- What the two calls return and emit is the same up to the shift; the SYN acknowledges nothing
in both, since the source passes 0 for the number. -/
theorem TcpDialogue.Related.output (h : first.Related a b second) (op : TcpOp) :
    TcpOutput.Moved a b first.opened op (op.output first.connection)
      ((op.moved b a).output second.connection) := by
  have hb : first.opened = true → (if first.opened then b else 0) = b := fun hwas => if_pos hwas
  have hmoved := h.2.1
  cases op with
  | onSegment segment =>
      exact ⟨(h.onSegment segment).1, rfl, ⟨0, rfl⟩, fun _ hack => absurd hack Bool.false_ne_true,
        fun _ heq => TcpOp.noConfusion heq⟩
  | buildSyn window =>
      have hcall := hmoved.buildSyn window
      exact ⟨hcall.result, rfl, ⟨0, hcall.segment⟩, fun _ hack => absurd hack Bool.false_ne_true,
        fun _ _ => ⟨hcall.segment, fun _ => acknowledgmentNumber_of_buildSyn⟩⟩
  | buildAck window =>
      have hsegment := hmoved.tcpBuild tcpFlagAck window []
      refine ⟨?_, rfl, ⟨_, hsegment⟩, fun hwas _ => (hb hwas ▸ hsegment :), ?_⟩
      · show (if (tcpConnectionBuildAck second.connection window).isSome then (0 : ℤ) else -1) = _
        rw [tcpConnectionBuildAck, hsegment, Option.isSome_map]
        rfl
      · exact fun _ heq => TcpOp.noConfusion heq
  | buildData payload window =>
      have hcall := hmoved.buildData payload window
      exact ⟨hcall.result, rfl, ⟨_, hcall.segment⟩, fun hwas _ => (hb hwas ▸ hcall.segment :),
        fun _ heq => TcpOp.noConfusion heq⟩
  | buildFin window =>
      have hcall := hmoved.buildFin window
      exact ⟨hcall.result, rfl, ⟨_, hcall.segment⟩, fun hwas _ => (hb hwas ▸ hcall.segment :),
        fun _ heq => TcpOp.noConfusion heq⟩
  | tick elapsedMs =>
      obtain ⟨e, hcall⟩ := hmoved.tick elapsedMs
      exact ⟨hcall.result, rfl, ⟨e, hcall.segment⟩, fun _ hack => absurd hack Bool.false_ne_true,
        fun _ heq => TcpOp.noConfusion heq⟩
  | read bufferLen =>
      have hbytes := (hmoved.read bufferLen).1
      exact ⟨congrArg (fun bytes => (bytes.length : ℤ)) hbytes, hbytes, ⟨0, rfl⟩,
        fun _ hack => absurd hack Bool.false_ne_true, fun _ heq => TcpOp.noConfusion heq⟩

end Related

/-- A connection that nothing has happened to is moved by its initial sequence number. -/
theorem TcpDialogue.init_related (localPort remotePort : BitVec 16) (iss a b : BitVec 32) :
    (TcpDialogue.init localPort remotePort iss).Related a b
      (TcpDialogue.init localPort remotePort (iss + a)) :=
  ⟨rfl, ⟨⟨a, 0, 0, TcpSegment.zero, 0⟩, rfl, rfl, rfl⟩, fun _ => ⟨rfl, rfl, fun _ => rfl⟩⟩

/-- A session of `TcpWorld.test` that the peer closes and the connection after it. -/
def closedSession : List TcpOp :=
  establishConnection ++
    [.onSegment (peerSegment 9001 1001 (tcpFlagFin ||| tcpFlagAck) []), .buildFin 64240,
      .onSegment (peerSegment 9002 1002 tcpFlagAck [])]

/-- **A SYN behind a completed handshake** acknowledges `0`, whatever the peer's numbers were:
with one added to them its acknowledgment number is the same. -/
theorem reopenedSyn_acknowledges_zero :
    let first := run TcpDialogue.step (TcpDialogue.init 40000 80 1000) closedSession
    let second := run TcpDialogue.step (TcpDialogue.init 40000 80 (1000 + 0))
      (closedSession.map (TcpOp.moved 1 0))
    let op := TcpOp.buildSyn 64240
    let syn := (op.output first.connection).segment
    let other := ((op.moved 1 0).output second.connection).segment
    first.opened = true ∧ syn.isSome = true ∧
      other.map (fun segment => segment.acknowledgmentNumber) ≠
        syn.map (fun segment => segment.acknowledgmentNumber + 1) := by
  decide +kernel

/-- **Sequence numbers are relative.**  Every run, and the run with other initial sequence
numbers, are moved against each other after every call, and so is what every call returns. -/
theorem run_moved (localPort remotePort : BitVec 16) (iss a b : BitVec 32) (ops : List TcpOp) :
    let first := run TcpDialogue.step (TcpDialogue.init localPort remotePort iss) ops
    let second := run TcpDialogue.step (TcpDialogue.init localPort remotePort (iss + a))
      (ops.map (TcpOp.moved b a))
    first.Moved a b second ∧ ∀ op : TcpOp, TcpOutput.Moved a b first.opened op
      (op.output first.connection) ((op.moved b a).output second.connection) := by
  have hrun := Transition.run_related (fun first second op h => h.step op) ops
    (TcpDialogue.init_related localPort remotePort iss a b)
  exact ⟨hrun.moved, fun op => hrun.output op⟩

end Netstack
