/-
# The receive path

The static functions of `src/tcp_connection.c` that move received bytes: from
`clear_reassembly` to `process_fin`.

A function that fails without having written anything returns an `Option`, with
`none` for its `-1`.  The `for` loop of `promote_reassembly` can fail after it has
already delivered some slots, so it returns an `Except` whose error is the
connection at the `return -1`.
-/

import Mathlib.Data.List.FinRange
import Netstack.TcpConnection.State

namespace Netstack

/-- An index of `connection->reassembly`. -/
abbrev SlotIndex : Type := Fin tcpReassemblySlotCount

/-- `clear_reassembly` -/
def clearReassembly (connection : TcpConnection) : TcpConnection :=
  { connection with
    reassembly := fun _ => TcpReassemblySlot.zero
    reassemblyCount := 0
    receiveReady := []
    pendingFin := false
    pendingFinSequence := 0 }

/-- `ready_append` -/
def readyAppend (connection : TcpConnection) (data : List UInt8) : Option TcpConnection :=
  if data.length = 0 then some connection
  else if connection.receiveReady.length > tcpReceiveReadyCapacity then none
  else if data.length > tcpReceiveReadyCapacity - connection.receiveReady.length then none
  else some { connection with receiveReady := connection.receiveReady ++ data }

/-- `find_free_reassembly_slot` -/
def findFreeReassemblySlot (connection : TcpConnection) : Option SlotIndex :=
  (List.finRange tcpReassemblySlotCount).find? fun i => !(connection.reassembly i).used

/-- `range_already_buffered` -/
def rangeAlreadyBuffered (connection : TcpConnection) (start stop : BitVec 32) : Bool :=
  (List.finRange tcpReassemblySlotCount).any fun i =>
    let slot := connection.reassembly i
    slot.used && (seqGe start slot.sequenceNumber && seqLe stop slot.slotEnd)

/-- `buffer_future_payload` -/
def bufferFuturePayload (connection : TcpConnection) (sequenceNumber : BitVec 32)
    (payload : List UInt8) : Option TcpConnection :=
  if payload.length = 0 then none
  else if payload.length > tcpReassemblySlotDataLen then none
  else if rangeAlreadyBuffered connection sequenceNumber
      (sequenceNumber + BitVec.ofNat 32 payload.length) then some connection
  else match findFreeReassemblySlot connection with
    | none => none
    | some slotIndex => some { connection with
        reassembly := Function.update connection.reassembly slotIndex ⟨true, sequenceNumber, payload⟩
        reassemblyCount := connection.reassemblyCount + 1 }

/-- `remove_reassembly_slot` -/
def removeReassemblySlot (connection : TcpConnection) (index : SlotIndex) : TcpConnection :=
  if !(connection.reassembly index).used then connection
  else { connection with
    reassembly := Function.update connection.reassembly index TcpReassemblySlot.zero
    reassemblyCount := if connection.reassemblyCount > 0 then connection.reassemblyCount - 1
      else connection.reassemblyCount }

/-- The state after the peer's FIN, as both `consume_pending_fin` and
`process_fin` assign it. -/
def TcpConnectionState.onPeerFin : TcpConnectionState → TcpConnectionState
  | .established => .closeWait
  | .finWait1 => .timeWait
  | .finWait2 => .timeWait
  | state => state

/-- `consume_pending_fin` -/
def consumePendingFin (connection : TcpConnection) : TcpConnection :=
  if !connection.pendingFin then connection
  else if connection.pendingFinSequence ≠ connection.receiveNext then connection
  else { connection with
    receiveNext := connection.receiveNext + 1
    pendingFin := false
    state := connection.state.onPeerFin }

/-- The body of the `for` loop of `promote_reassembly`: the connection after it
and whether it set `progress`. -/
def promoteSlot (connection : TcpConnection) (i : SlotIndex) :
    Except TcpConnection (TcpConnection × Bool) :=
  let slot := connection.reassembly i
  if !slot.used then .ok (connection, false)
  -- already fully received
  else if seqLe slot.slotEnd connection.receiveNext then
    .ok (removeReassemblySlot connection i, true)
  -- still begins in the future
  else if seqGt slot.sequenceNumber connection.receiveNext then .ok (connection, false)
  else
    let overlap := (connection.receiveNext - slot.sequenceNumber).toNat
    if overlap > slot.payload.length then .ok (connection, false)
    else match readyAppend connection (slot.payload.drop overlap) with
      | none => .error connection
      | some connection =>
        let connection := { connection with
          receiveNext := connection.receiveNext + BitVec.ofNat 32 (slot.payload.length - overlap) }
        .ok (removeReassemblySlot connection i, true)

/-- The `for` loop of `promote_reassembly` over the indices still to come. -/
def promoteScan : List SlotIndex → TcpConnection → Bool → Except TcpConnection (TcpConnection × Bool)
  | [], connection, progress => .ok (connection, progress)
  | i :: rest, connection, progress =>
    match promoteSlot connection i with
    | .error connection => .error connection
    | .ok (connection, moved) => promoteScan rest connection (progress || moved)

/-- The `while (progress)` loop of `promote_reassembly`.  Every scan with progress
empties a slot, so that the fuel is never used up (`promoteLoop_eq`). -/
def promoteWhile : ℕ → TcpConnection → Except TcpConnection TcpConnection
  | 0, connection => .ok connection
  | fuel + 1, connection =>
    match promoteScan (List.finRange tcpReassemblySlotCount) connection false with
    | .error connection => .error connection
    | .ok (connection, true) => promoteWhile fuel connection
    | .ok (connection, false) => .ok connection

/-- The loop of `promote_reassembly`, up to the call of `consume_pending_fin`. -/
def promoteLoop (connection : TcpConnection) : Except TcpConnection TcpConnection :=
  promoteWhile (tcpReassemblySlotCount + 1) connection

/-- `promote_reassembly` -/
def promoteReassembly (connection : TcpConnection) : ℤ × TcpConnection :=
  match promoteLoop connection with
  | .error connection => (-1, connection)
  | .ok connection => (0, consumePendingFin connection)

/-- `process_payload` -/
def processPayload (connection : TcpConnection) (segment : TcpSegment) : ℤ × TcpConnection :=
  if segment.payload.length = 0 then (0, connection)
  -- a duplicate retransmission
  else if seqLe segment.payloadEnd connection.receiveNext then (0, connection)
  -- the segment begins after a gap
  else if seqGt segment.sequenceNumber connection.receiveNext then
    match bufferFuturePayload connection segment.sequenceNumber segment.payload with
    | none => (-1, connection)
    | some connection => (0, connection)
  else
    let overlap := (connection.receiveNext - segment.sequenceNumber).toNat
    if overlap > segment.payload.length then (0, connection)
    else match readyAppend connection (segment.payload.drop overlap) with
      | none => (-1, connection)
      | some connection =>
        promoteReassembly { connection with
          receiveNext :=
            connection.receiveNext + BitVec.ofNat 32 (segment.payload.length - overlap) }

/-- `process_fin` -/
def processFin (connection : TcpConnection) (segment : TcpSegment) : TcpConnection :=
  if !segment.hasFlag tcpFlagFin then connection
  else
    let finSequence := segment.payloadEnd
    if finSequence = connection.receiveNext then
      { connection with
        receiveNext := connection.receiveNext + 1
        state := connection.state.onPeerFin }
    -- the FIN is ahead of a receive gap
    else if seqGt finSequence connection.receiveNext then
      if !connection.pendingFin || seqLt finSequence connection.pendingFinSequence then
        { connection with pendingFin := true, pendingFinSequence := finSequence }
      else connection
    else connection

end Netstack
