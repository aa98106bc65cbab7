/-
# The connection engine

The public functions of `src/tcp_connection.c`.

Pointers are never `NULL` here.  A function that may write `*segment` returns what
it wrote, next to its `int` and to the connection it leaves.
`tcp_connection_on_segment` is cut at its own comments: ACK processing, the
handshake, and the two closing checks at its end are functions of their own.
-/

import Netstack.TcpConnection.Reassembly

namespace Netstack

/-- What a call that may emit a segment leaves behind: its `int` result, the
connection, and the segment it wrote. -/
structure TcpEmission where
  result : ℤ
  connection : TcpConnection
  segment : Option TcpSegment

/-- `remember_for_retransmission` -/
def rememberForRetransmission (connection : TcpConnection) (segment : TcpSegment) :
    TcpConnection :=
  { connection with
    lastSegment := segment
    hasRetransmitSegment := true
    retransmitElapsedMs := 0 }

/-- `tcp_connection_init` -/
def tcpConnectionInit (localPort remotePort : BitVec 16) (initialSequence : BitVec 32) :
    TcpConnection :=
  clearReassembly {
    state := .closed
    localPort
    remotePort
    sendUnacknowledged := initialSequence
    sendNext := initialSequence
    receiveNext := 0
    remoteWindow := 0
    retransmitTimeoutMs := tcpDefaultRtoMs
    retransmitElapsedMs := 0
    retransmitCount := 0
    retransmitLimit := tcpDefaultRetransmitLimit
    lastSegment := TcpSegment.zero
    hasRetransmitSegment := false
    reassembly := fun _ => TcpReassemblySlot.zero
    reassemblyCount := 0
    receiveReady := []
    pendingFin := false
    pendingFinSequence := 0 }

/-- `tcp_connection_build_syn` -/
def tcpConnectionBuildSyn (connection : TcpConnection) (window : BitVec 16) : TcpEmission :=
  if connection.state ≠ .closed then ⟨-1, connection, none⟩
  else match tcpBuild connection.localPort connection.remotePort connection.sendNext 0
      tcpFlagSyn window [] with
    | none => ⟨-1, connection, none⟩
    | some segment =>
      let connection := { connection with
        sendUnacknowledged := connection.sendNext
        sendNext := connection.sendNext + 1
        state := .synSent }
      ⟨0, rememberForRetransmission connection segment, some segment⟩

/-- The `if` of the ACK block of `tcp_connection_on_segment`: the number
acknowledges something outstanding. -/
def TcpConnection.acceptsAck (connection : TcpConnection) (segment : TcpSegment) : Bool :=
  segment.hasFlag tcpFlagAck &&
    (seqGt segment.acknowledgmentNumber connection.sendUnacknowledged &&
      seqLe segment.acknowledgmentNumber connection.sendNext)

/-- `tcp_connection_on_segment`, "ACK processing". -/
def processAck (connection : TcpConnection) (segment : TcpSegment) : TcpConnection :=
  if !connection.acceptsAck segment then connection
  else
    let connection := { connection with
      sendUnacknowledged := segment.acknowledgmentNumber
      retransmitElapsedMs := 0
      retransmitCount := 0 }
    if connection.sendUnacknowledged = connection.sendNext then
      { connection with
        hasRetransmitSegment := false
        retransmitTimeoutMs := tcpDefaultRtoMs }
    else connection

/-- `tcp_connection_on_segment` between the RST check and the handshake: ACK
processing and the assignment of `remote_window`. -/
def TcpConnection.afterAck (connection : TcpConnection) (segment : TcpSegment) : TcpConnection :=
  { processAck connection segment with remoteWindow := segment.windowSize }

/-- `tcp_connection_on_segment`, "Handshake". -/
def processHandshake (connection : TcpConnection) (segment : TcpSegment) : ℤ × TcpConnection :=
  if segment.flags &&& (tcpFlagSyn ||| tcpFlagAck) = tcpFlagSyn ||| tcpFlagAck then
    if segment.acknowledgmentNumber ≠ connection.sendNext then (-1, connection)
    else (1, { connection with
      receiveNext := segment.sequenceNumber + 1
      state := .established
      hasRetransmitSegment := false
      retransmitCount := 0
      retransmitElapsedMs := 0
      retransmitTimeoutMs := tcpDefaultRtoMs })
  else (0, connection)

/-- The states in which `tcp_connection_on_segment` goes on to the payload. -/
def TcpConnectionState.receives : TcpConnectionState → Bool
  | .established | .finWait1 | .finWait2 | .closeWait | .lastAck => true
  | .closed | .synSent | .timeWait | .reset => false

/-- `tcp_connection_on_segment`, "Active close" and "Passive close". -/
def finishClose (connection : TcpConnection) : TcpConnection :=
  if connection.state = .finWait1 ∧ connection.sendUnacknowledged = connection.sendNext then
    { connection with state := .finWait2 }
  else if connection.state = .lastAck ∧ connection.sendUnacknowledged = connection.sendNext then
    { connection with state := .closed, hasRetransmitSegment := false }
  else connection

/-- The port check of `tcp_connection_on_segment`. -/
def TcpConnection.addressedBy (connection : TcpConnection) (segment : TcpSegment) : Bool :=
  segment.sourcePort == connection.remotePort && segment.destinationPort == connection.localPort

/-- `tcp_connection_on_segment` -/
def tcpConnectionOnSegment (connection : TcpConnection) (segment : TcpSegment) :
    ℤ × TcpConnection :=
  if !connection.addressedBy segment then (-1, connection)
  else if segment.hasFlag tcpFlagRst then
    (0, clearReassembly { connection with state := .reset, hasRetransmitSegment := false })
  else
    let connection := connection.afterAck segment
    if connection.state = .synSent then processHandshake connection segment
    else if !connection.state.receives then (0, connection)
    else
      let (result, connection) := processPayload connection segment
      if result ≠ 0 then (-2, connection)
      else (0, finishClose (consumePendingFin (processFin connection segment)))

/-- `tcp_connection_build_ack` -/
def tcpConnectionBuildAck (connection : TcpConnection) (window : BitVec 16) : Option TcpSegment :=
  tcpBuild connection.localPort connection.remotePort connection.sendNext connection.receiveNext
    tcpFlagAck window []

/-- `tcp_connection_build_data` -/
def tcpConnectionBuildData (connection : TcpConnection) (payload : List UInt8)
    (window : BitVec 16) : TcpEmission :=
  if payload.length = 0 ∨ connection.state ≠ .established then ⟨-1, connection, none⟩
  else match tcpBuild connection.localPort connection.remotePort connection.sendNext
      connection.receiveNext (tcpFlagPsh ||| tcpFlagAck) window payload with
    | none => ⟨-1, connection, none⟩
    | some segment =>
      let connection := { connection with
        sendUnacknowledged := connection.sendNext
        sendNext := connection.sendNext + BitVec.ofNat 32 payload.length }
      ⟨0, rememberForRetransmission connection segment, some segment⟩

/-- `tcp_connection_build_fin` -/
def tcpConnectionBuildFin (connection : TcpConnection) (window : BitVec 16) : TcpEmission :=
  if connection.state ≠ .established ∧ connection.state ≠ .closeWait then ⟨-1, connection, none⟩
  else match tcpBuild connection.localPort connection.remotePort connection.sendNext
      connection.receiveNext (tcpFlagFin ||| tcpFlagAck) window [] with
    | none => ⟨-1, connection, none⟩
    | some segment =>
      let connection := { connection with
        sendUnacknowledged := connection.sendNext
        sendNext := connection.sendNext + 1
        state := if connection.state = .closeWait then .lastAck else .finWait1 }
      ⟨0, rememberForRetransmission connection segment, some segment⟩

/-- `UINT32_MAX` -/
def uint32Max : BitVec 32 := BitVec.allOnes 32

/-- The timer addition of `tcp_connection_tick`, which does not wrap. -/
def addElapsed (elapsedMs retransmitElapsedMs : BitVec 32) : BitVec 32 :=
  if elapsedMs > uint32Max - retransmitElapsedMs then uint32Max
  else retransmitElapsedMs + elapsedMs

/-- The exponential backoff of `tcp_connection_tick`. -/
def backoff (retransmitTimeoutMs : BitVec 32) : BitVec 32 :=
  if retransmitTimeoutMs < tcpMaxRtoMs then
    let doubled := retransmitTimeoutMs * 2
    if doubled > tcpMaxRtoMs then tcpMaxRtoMs else doubled
  else retransmitTimeoutMs

/-- `tcp_connection_tick` -/
def tcpConnectionTick (connection : TcpConnection) (elapsedMs : BitVec 32) : TcpEmission :=
  if !connection.hasRetransmitSegment then ⟨0, connection, none⟩
  else
    let connection := { connection with
      retransmitElapsedMs := addElapsed elapsedMs connection.retransmitElapsedMs }
    if connection.retransmitElapsedMs < connection.retransmitTimeoutMs then ⟨0, connection, none⟩
    else if connection.retransmitCount ≥ connection.retransmitLimit then
      ⟨-1, { connection with state := .reset, hasRetransmitSegment := false }, none⟩
    else
      ⟨1, { connection with
        retransmitCount := connection.retransmitCount + 1
        retransmitElapsedMs := 0
        retransmitTimeoutMs := backoff connection.retransmitTimeoutMs },
        some connection.lastSegment⟩

/-- `tcp_connection_read`: the bytes copied to the buffer, whose number is the
result, and the connection. -/
def tcpConnectionRead (connection : TcpConnection) (bufferLen : ℕ) : List UInt8 × TcpConnection :=
  if bufferLen = 0 ∨ connection.receiveReady.length = 0 then ([], connection)
  else
    let copyLen :=
      if connection.receiveReady.length > bufferLen then bufferLen
      else connection.receiveReady.length
    (connection.receiveReady.take copyLen,
      { connection with receiveReady := connection.receiveReady.drop copyLen })

/-- `tcp_connection_readable` -/
def tcpConnectionReadable (connection : TcpConnection) : ℕ := connection.receiveReady.length

/-- `tcp_connection_reassembly_count` -/
def tcpConnectionReassemblyCount (connection : TcpConnection) : ℕ := connection.reassemblyCount

end Netstack
