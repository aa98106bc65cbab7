/-
# Runs of a connection and their history

A run is any sequence of calls of the public functions on one connection.  What
the connection does is `TcpOp.effect`, the functions of
`Netstack.TcpConnection.Engine` and nothing else.

`TcpHistory` records beside it what the caller and the peer have seen and the
connection forgets: the bytes read, the SYN and the FIN of the session, the
sequence numbers sent and not yet acknowledged, and how many FINs of the peer
have been consumed.  A FIN is consumed where the source executes
`connection->receive_next++`: once in `consume_pending_fin`, once in
`process_fin`.  `onSegmentFins` counts these executions along the path that
`tcp_connection_on_segment` takes.
-/

import Netstack.Library.Transition
import Netstack.TcpConnection.Engine

namespace Netstack

/-- One call of a public function of `tcp_connection.h`. -/
inductive TcpOp where
  | buildSyn (window : BitVec 16)
  | onSegment (segment : TcpSegment)
  | buildAck (window : BitVec 16)
  | buildData (payload : List UInt8) (window : BitVec 16)
  | buildFin (window : BitVec 16)
  | tick (elapsedMs : BitVec 32)
  | read (bufferLen : ℕ)
deriving DecidableEq

/-- What a call does to the connection. -/
def TcpOp.effect (connection : TcpConnection) : TcpOp → TcpConnection
  | .buildSyn window => (tcpConnectionBuildSyn connection window).connection
  | .onSegment segment => (tcpConnectionOnSegment connection segment).2
  | .buildAck _ => connection
  | .buildData payload window => (tcpConnectionBuildData connection payload window).connection
  | .buildFin window => (tcpConnectionBuildFin connection window).connection
  | .tick elapsedMs => (tcpConnectionTick connection elapsedMs).connection
  | .read bufferLen => (tcpConnectionRead connection bufferLen).2

/-! ### FINs of the peer -/

/-- `consume_pending_fin` executes `receive_next++`. -/
def TcpConnection.pendingFinDue (connection : TcpConnection) : Bool :=
  connection.pendingFin && connection.pendingFinSequence == connection.receiveNext

/-- `process_fin` executes `receive_next++`. -/
def TcpConnection.finDue (connection : TcpConnection) (segment : TcpSegment) : Bool :=
  segment.hasFlag tcpFlagFin && segment.payloadEnd == connection.receiveNext

/-- The FINs that `promote_reassembly` consumes. -/
def promoteFins (connection : TcpConnection) : ℕ :=
  match promoteLoop connection with
  | .error _ => 0
  | .ok connection => connection.pendingFinDue.toNat

/-- The FINs that `process_payload` consumes, branch by branch. -/
def payloadFins (connection : TcpConnection) (segment : TcpSegment) : ℕ :=
  if segment.payload.length = 0 then 0
  else if seqLe segment.payloadEnd connection.receiveNext then 0
  else if seqGt segment.sequenceNumber connection.receiveNext then 0
  else
    let overlap := (connection.receiveNext - segment.sequenceNumber).toNat
    if overlap > segment.payload.length then 0
    else match readyAppend connection (segment.payload.drop overlap) with
      | none => 0
      | some connection =>
        promoteFins { connection with
          receiveNext :=
            connection.receiveNext + BitVec.ofNat 32 (segment.payload.length - overlap) }

/-- The FINs that one call of `tcp_connection_on_segment` consumes. -/
def onSegmentFins (connection : TcpConnection) (segment : TcpSegment) : ℕ :=
  if !connection.addressedBy segment then 0
  else if segment.hasFlag tcpFlagRst then 0
  else
    let connection := connection.afterAck segment
    if connection.state = .synSent then 0
    else if !connection.state.receives then 0
    else
      let fins := payloadFins connection segment
      let (result, connection) := processPayload connection segment
      if result ≠ 0 then fins
      else fins + (connection.finDue segment).toNat +
        (processFin connection segment).pendingFinDue.toNat

/-! ### The history -/

/-- How many sequence numbers a segment occupies: its payload, its SYN and its FIN. -/
def TcpSegment.sequenceLength (segment : TcpSegment) : ℕ :=
  segment.payload.length + (segment.hasFlag tcpFlagSyn).toNat + (segment.hasFlag tcpFlagFin).toNat

/-- The sequence numbers a segment occupies. -/
def TcpSegment.sequenceNumbers (segment : TcpSegment) : List (BitVec 32) :=
  (List.range segment.sequenceLength).map fun i => segment.sequenceNumber + BitVec.ofNat 32 i

/-- `tcp_connection_on_segment` accepts the acknowledgment of the segment. -/
def TcpConnection.acknowledgedBy (connection : TcpConnection) (segment : TcpSegment) : Bool :=
  connection.addressedBy segment && (!segment.hasFlag tcpFlagRst && connection.acceptsAck segment)

/-- What has happened to a connection.  `syn`, `fin`, `finAcked`, `peerFins` and
`established` are about the session that the last `build_syn` began. -/
structure TcpHistory where
  /-- everything `tcp_connection_read` has returned -/
  delivered : List UInt8
  /-- the handshake was completed -/
  established : Bool
  /-- the SYN that was built -/
  syn : Option TcpSegment
  /-- the FIN that was built -/
  fin : Option TcpSegment
  /-- an accepted acknowledgment covered the FIN -/
  finAcked : Bool
  /-- the FINs of the peer that were consumed -/
  peerFins : ℕ
  /-- the sequence numbers sent that no accepted acknowledgment has covered -/
  unacked : List (BitVec 32)

/-- The history of a connection that nothing has happened to. -/
def TcpHistory.empty : TcpHistory := ⟨[], false, none, none, false, 0, []⟩

/-- The history after the segment `segment` was built. -/
def TcpHistory.send (history : TcpHistory) (segment : TcpSegment) : TcpHistory :=
  { history with unacked := history.unacked ++ segment.sequenceNumbers }

/-- The history after the acknowledgment of `segment` was accepted. -/
def TcpHistory.acknowledge (history : TcpHistory) (segment : TcpSegment) : TcpHistory :=
  { history with
    unacked := history.unacked.filter fun x => !seqLt x segment.acknowledgmentNumber
    finAcked := history.finAcked ||
      history.fin.any fun fin => seqLt fin.payloadEnd segment.acknowledgmentNumber }

/-- The history after a call. -/
def TcpHistory.record (history : TcpHistory) (connection : TcpConnection) : TcpOp → TcpHistory
  | .buildSyn window =>
    match (tcpConnectionBuildSyn connection window).segment with
    | none => history
    | some segment =>
      { history.send segment with
        established := false
        syn := some segment
        fin := none
        finAcked := false
        peerFins := 0 }
  | .onSegment segment =>
    let acked :=
      if connection.acknowledgedBy segment then history.acknowledge segment else history
    { acked with
      established := history.established || (tcpConnectionOnSegment connection segment).1 == 1
      peerFins := history.peerFins + onSegmentFins connection segment }
  | .buildAck _ => history
  | .buildData payload window =>
    match (tcpConnectionBuildData connection payload window).segment with
    | none => history
    | some segment => history.send segment
  | .buildFin window =>
    match (tcpConnectionBuildFin connection window).segment with
    | none => history
    | some segment => { history.send segment with fin := some segment }
  | .tick _ => history
  | .read bufferLen =>
    { history with delivered := history.delivered ++ (tcpConnectionRead connection bufferLen).1 }

/-- A connection with its history. -/
structure TcpWorld where
  connection : TcpConnection
  history : TcpHistory

/-- A connection after `tcp_connection_init`. -/
def TcpWorld.init (localPort remotePort : BitVec 16) (initialSequence : BitVec 32) : TcpWorld :=
  ⟨tcpConnectionInit localPort remotePort initialSequence, TcpHistory.empty⟩

/-- One call. -/
def TcpWorld.step (world : TcpWorld) (op : TcpOp) : TcpWorld :=
  ⟨op.effect world.connection, world.history.record world.connection op⟩

@[simp] theorem TcpWorld.step_connection (world : TcpWorld) (op : TcpOp) :
    (world.step op).connection = op.effect world.connection := rfl

@[simp] theorem TcpWorld.step_history (world : TcpWorld) (op : TcpOp) :
    (world.step op).history = world.history.record world.connection op := rfl

/-- The segments that a run hands to `tcp_connection_on_segment`. -/
def TcpOp.segments (ops : List TcpOp) : List TcpSegment :=
  ops.filterMap fun
    | .onSegment segment => some segment
    | _ => none

/-! ### The connection of the tests -/

/-- A segment from port 80 to port 40000, as the tests build the peer's. -/
def peerSegment (sequenceNumber acknowledgmentNumber : BitVec 32) (flags : BitVec 8)
    (payload : List UInt8) : TcpSegment :=
  (tcpBuild 80 40000 sequenceNumber acknowledgmentNumber flags 65535 payload).getD TcpSegment.zero

/-- A connection from port 40000 to port 80 with initial sequence number 1000. -/
def TcpWorld.test : TcpWorld := TcpWorld.init 40000 80 1000

/-- The calls of `establish_connection` of the tests after `tcp_connection_init`. -/
def establishConnection : List TcpOp :=
  [.buildSyn 64240, .onSegment (peerSegment 9000 1001 (tcpFlagSyn ||| tcpFlagAck) [])]

end Netstack
