/-
# `netstack_http`

The functions of `tools/netstack_http.c` that talk to the network, with what they print;
`tcp_state_flag_name` of `src/tcp.c` and `tcp_connection_state_name` of `src/tcp_connection.c`.

A loop is cut at its branches, which are functions of their own: what is done when no segment
came, and what is done with one that did.  The arrays that the source does not initialise, and
what `malloc` and `realloc` give, are a `HttpMemory`.
-/

import Netstack.Http.Accumulation
import Netstack.Http.Request
import Netstack.Tools.Packets

namespace Netstack

open Interaction
open Interaction.Program

/-! ### Names -/

/-- `tcp_state_flag_name` -/
def tcpStateFlagName (flags : BitVec 8) : String :=
  if flags &&& (tcpFlagSyn ||| tcpFlagAck) = tcpFlagSyn ||| tcpFlagAck then "SYN-ACK"
  else if flags &&& tcpFlagSyn ≠ 0 then "SYN"
  else if flags &&& tcpFlagRst ≠ 0 then "RST"
  else if flags &&& tcpFlagFin ≠ 0 then "FIN"
  else if flags &&& tcpFlagAck ≠ 0 then "ACK"
  else "NONE"

/-- `tcp_connection_state_name` -/
def tcpConnectionStateName : TcpConnectionState → String
  | .closed => "CLOSED"
  | .synSent => "SYN-SENT"
  | .established => "ESTABLISHED"
  | .finWait1 => "FIN-WAIT-1"
  | .finWait2 => "FIN-WAIT-2"
  | .closeWait => "CLOSE-WAIT"
  | .lastAck => "LAST-ACK"
  | .timeWait => "TIME-WAIT"
  | .reset => "RESET"

/-- `%-12s` -/
def padRight (text : String) : String := text.pushn ' ' (12 - text.length)

/-! ### Memory -/

/-- `HTTP_MAX_REQUEST_LEN` -/
def httpMaxRequestLen : ℕ := 4096

/-- What the arrays hold that `netstack_http` does not initialise, and what it gets from `malloc`
and `realloc`. -/
structure HttpMemory where
  /-- `request` of `run_http` -/
  request : List UInt8
  /-- `buffer` of `drain_tcp_application_data` -/
  buffer : List UInt8
  /-- `response` of `print_http_response` -/
  response : HttpResponse
  /-- `malloc` in `run_http` -/
  mallocResponse : Option (List UInt8)
  /-- `malloc` in `print_http_response` -/
  malloc : ℕ → Option (List UInt8)
  realloc : List UInt8 → ℕ → Option (List UInt8)

/-- The arrays have the lengths that they are declared with, and `malloc` and `realloc` give what
they are asked for or nothing. -/
structure HttpMemory.IsSound (memory : HttpMemory) : Prop where
  request : memory.request.length = httpMaxRequestLen
  buffer : memory.buffer.length = tcpAppReadBuffer
  statusText : memory.response.statusText.length = 64
  mallocResponse : ∀ array ∈ memory.mallocResponse, array.length = httpResponseInitialCapacity
  malloc : MayAllocate memory.malloc
  realloc : MayReallocate memory.realloc

namespace HttpTool

/-- `TCP_POLL_MS` -/
def tcpPollMs : BitVec 32 := 250

/-- `TCP_CONNECT_TIMEOUT_MS` -/
def tcpConnectTimeoutMs : ℤ := 10000

/-- `HTTP_TIMEOUT_MS` -/
def httpTimeoutMs : ℤ := 15000

/-- `HTTP_SOURCE_PORT` -/
def httpSourcePort : BitVec 16 := 40001

/-- `HTTP_DESTINATION_PORT` -/
def httpDestinationPort : BitVec 16 := 80

/-- `TCP_WINDOW_SIZE` -/
def tcpWindowSize : BitVec 16 := 64240

/-- What `generate_isn` makes of a reading of the clock. -/
def mixIsn (now : Timespec) : BitVec 32 :=
  let value := (BitVec.ofInt 64 now.tvSec <<< 32) ^^^ BitVec.ofInt 64 now.tvNsec
  let value := value ^^^ (value >>> 33)
  let value := value * 0xff51afd7ed558ccd#64
  let value := value ^^^ (value >>> 33)
  value.setWidth 32

/-- `generate_isn` -/
def generateIsn : Tool (BitVec 32) := do
  match ← clockGettime with
  | none => return 0x42424242#32
  | some now => return mixIsn now

/-- `send_tcp_segment` -/
def sendTcpSegment (dev : Netdev) (targetIp : Ipv4Address) (nextHopMac : MacAddress)
    (tcp : TcpSegment) : Tool ℤ :=
  sendTcp dev targetIp nextHopMac 0x4854#16 tcp

/-- The checks of `receive_tcp_segment`. -/
def receiveFilter (dev : Netdev) (targetIp : Ipv4Address) (bytes : List UInt8) :
    Option TcpSegment :=
  segmentFilter dev targetIp httpDestinationPort httpSourcePort bytes

/-- `receive_tcp_segment`, which returns `-1`, `0`, or `1` with a segment. -/
def receiveTcpSegment (dev : Netdev) (targetIp : Ipv4Address) (timeoutMs : ℤ) :
    Tool (Wait TcpSegment) := do
  match ← clockGettime with
  | none => return .failed
  | some start =>
    awaitFrame dev true start timeoutMs fun bytes => .ok (receiveFilter dev targetIp bytes)

/-- `send_connection_ack` -/
def sendConnectionAck (dev : Netdev) (targetIp : Ipv4Address) (nextHopMac : MacAddress)
    (connection : TcpConnection) : Tool ℤ :=
  match tcpConnectionBuildAck connection tcpWindowSize with
  | none => return -1
  | some ack => sendTcpSegment dev targetIp nextHopMac ack

/-! ### The handshake -/

/-- The end of a round of the loop of `connect_tcp`: the timer of the SYN. -/
def connectTick (dev : Netdev) (targetIp : Ipv4Address) (nextHopMac : MacAddress)
    (connection : TcpConnection) : Tool (Round TcpConnection (ℤ × TcpConnection)) :=
  let tick := tcpConnectionTick connection tcpPollMs
  if tick.result < 0 then do
    eprintf [.text "TCP retransmission limit reached.\n"]
    return .leave (-1, tick.connection)
  else if tick.result = 1 then
    match tick.segment with
    | none => stop (.fault .read)
    | some retransmit => do
      printf [.text "TCP  RETRANSMIT   ", .text (tcpStateFlagName retransmit.flags),
        .text " seq=", .number retransmit.sequenceNumber.toNat, .text " retry=",
        .number tick.connection.retransmitCount.toNat, .text " rto=",
        .number tick.connection.retransmitTimeoutMs.toNat, .text " ms\n"]
      let sent ← sendTcpSegment dev targetIp nextHopMac retransmit
      if sent ≠ 0 then return .leave (-1, tick.connection) else return .again tick.connection
  else return .again tick.connection

/-- The loop of `connect_tcp` with a segment. -/
def connectSegment (dev : Netdev) (targetIp : Ipv4Address) (nextHopMac : MacAddress)
    (connection : TcpConnection) (incoming : TcpSegment) :
    Tool (Round TcpConnection (ℤ × TcpConnection)) :=
  let call := tcpConnectionOnSegment connection incoming
  if call.1 < 0 then return .again call.2
  else if call.2.state = .reset then do
    eprintf [.text "TCP connection reset.\n"]
    return .leave (-1, call.2)
  else if call.2.state = .established then do
    printf [.text "TCP  SYN-ACK      seq=", .number incoming.sequenceNumber.toNat, .text " ack=",
      .number incoming.acknowledgmentNumber.toNat, .text "\n"]
    let sent ← sendConnectionAck dev targetIp nextHopMac call.2
    if sent ≠ 0 then return .leave (-1, call.2)
    else do
      printf [.text "TCP  STATE        ", .text (tcpConnectionStateName call.2.state), .text "\n"]
      return .leave (0, call.2)
  else connectTick dev targetIp nextHopMac call.2

/-- A round of the loop of `connect_tcp`. -/
def connectRound (dev : Netdev) (targetIp : Ipv4Address) (nextHopMac : MacAddress)
    (start : Timespec) (connection : TcpConnection) :
    Tool (Round TcpConnection (ℤ × TcpConnection)) := do
  match ← clockGettime with
  | none => return .leave (-1, connection)
  | some now =>
    if elapsedExceeds start now tcpConnectTimeoutMs then do
      eprintf [.text "TCP connection timed out.\n"]
      return .leave (-1, connection)
    else
      match ← receiveTcpSegment dev targetIp tcpPollMs.toNat with
      | .failed => return .leave (-1, connection)
      | .expired => connectTick dev targetIp nextHopMac connection
      | .got incoming => connectSegment dev targetIp nextHopMac connection incoming

/-- `connect_tcp`: its result, and the connection. -/
def connectTcp (dev : Netdev) (targetIp : Ipv4Address) (nextHopMac : MacAddress)
    (connection : TcpConnection) : Tool (ℤ × TcpConnection) :=
  let emission := tcpConnectionBuildSyn connection tcpWindowSize
  if emission.result ≠ 0 then return (-1, emission.connection)
  else
    match emission.segment with
    | none => stop (.fault .read)
    | some syn => do
      printf [.text "TCP  ", .text (padRight (tcpConnectionStateName emission.connection.state)),
        .text " seq=", .number syn.sequenceNumber.toNat, .text "\n"]
      let sent ← sendTcpSegment dev targetIp nextHopMac syn
      if sent ≠ 0 then return (-1, emission.connection)
      else do
        match ← clockGettime with
        | none => return (-1, emission.connection)
        | some start =>
          foreverTimed (connectRound dev targetIp nextHopMac start) emission.connection

/-! ### The response -/

/-- `drain_tcp_application_data` with what it prints. -/
def deliverLoop (realloc : List UInt8 → ℕ → Option (List UInt8)) :
    ℕ → List UInt8 → TcpConnection → ResponseBuffer → Tool (ℤ × TcpConnection × ResponseBuffer)
  | 0, _, _, _ => stop (.fault .diverge)
  | fuel + 1, buffer, connection, response =>
    if tcpConnectionReadable connection > 0 then do
      let read := tcpConnectionRead connection tcpAppReadBuffer
      let buffer ← liftChecked (writeRange buffer 0 read.1)
      if read.1.length = 0 then return (0, read.2, response)
      else do
        let appended ← liftChecked (appendResponse realloc response buffer read.1.length)
        if appended.1 ≠ 0 then return (-1, read.2, appended.2)
        else do
          printf [.text "TCP  DELIVER      bytes=", .number read.1.length, .text " total=",
            .number appended.2.length, .text " ack=", .number read.2.receiveNext.toNat,
            .text " queued=", .number (tcpConnectionReassemblyCount read.2), .text "\n"]
          deliverLoop realloc fuel buffer read.2 appended.2
    else return (0, connection, response)

/-- `drain_tcp_application_data` with what it prints. -/
def deliver (memory : HttpMemory) (connection : TcpConnection) (response : ResponseBuffer) :
    Tool (ℤ × TcpConnection × ResponseBuffer) :=
  deliverLoop memory.realloc (tcpConnectionReadable connection + 1) memory.buffer connection response

/-- The loop variables of `run_http`. -/
abbrev Exchange : Type := TcpConnection × ResponseBuffer

/-- The loop of `run_http` when no segment came: the timer.  `none` is for `return -1`. -/
def exchangeTick (dev : Netdev) (targetIp : Ipv4Address) (nextHopMac : MacAddress)
    (connection : TcpConnection) (response : ResponseBuffer) :
    Tool (Round Exchange (Option Exchange)) :=
  let tick := tcpConnectionTick connection tcpPollMs
  if tick.result < 0 then do
    eprintf [.text "TCP retransmission limit reached.\n"]
    return .leave none
  else if tick.result = 1 then
    match tick.segment with
    | none => stop (.fault .read)
    | some retransmit => do
      printf [.text "TCP  RETRANSMIT   ", .text (tcpStateFlagName retransmit.flags),
        .text " seq=", .number retransmit.sequenceNumber.toNat, .text " retry=",
        .number tick.connection.retransmitCount.toNat, .text "\n"]
      let sent ← sendTcpSegment dev targetIp nextHopMac retransmit
      if sent ≠ 0 then return .leave none else return .again (tick.connection, response)
  else return .again (tick.connection, response)

/-- "Diagnostic only": what `run_http` prints about a segment, with the numbers of the connection
before and after it. -/
def arrivalLines (incoming : TcpSegment) (expectedBefore : BitVec 32) (queueBefore : ℕ)
    (after : TcpConnection) : List Printed :=
  let queueAfter := tcpConnectionReassemblyCount after
  if incoming.payload.length > 0 then
    (if incoming.sequenceNumber > expectedBefore then
      [.text "TCP  BUFFER       seq=", .number incoming.sequenceNumber.toNat, .text " expected=",
        .number expectedBefore.toNat, .text " bytes=", .number incoming.payload.length,
        .text " queue=", .number queueAfter, .text "\n"]
    else if incoming.sequenceNumber < expectedBefore ∧ after.receiveNext = expectedBefore then
      [.text "TCP  DUPLICATE    seq=", .number incoming.sequenceNumber.toNat, .text " bytes=",
        .number incoming.payload.length, .text " ack=", .number after.receiveNext.toNat, .text "\n"]
    else []) ++
    (if queueAfter < queueBefore then
      [.text "TCP  REASSEMBLE   promoted=", .number (queueBefore - queueAfter : ℕ), .text " ack=",
        .number after.receiveNext.toNat, .text "\n"]
    else [])
  else []

/-- The acknowledgment of a segment that has a payload or a FIN. -/
def acknowledge (dev : Netdev) (targetIp : Ipv4Address) (nextHopMac : MacAddress)
    (incoming : TcpSegment) (connection : TcpConnection) : Tool ℤ :=
  if incoming.payload.length > 0 ∨ incoming.hasFlag tcpFlagFin = true then
    sendConnectionAck dev targetIp nextHopMac connection
  else return 0

/-- The loop of `run_http` behind the drain: the acknowledgment, and whether the peer has
closed. -/
def exchangeAnswer (dev : Netdev) (targetIp : Ipv4Address) (nextHopMac : MacAddress)
    (stateBefore : TcpConnectionState) (incoming : TcpSegment) (connection : TcpConnection)
    (response : ResponseBuffer) : Tool (Round Exchange (Option Exchange)) := do
  let sent ← acknowledge dev targetIp nextHopMac incoming connection
  if sent ≠ 0 then return .leave none
  else if stateBefore ≠ .closeWait ∧ connection.state = .closeWait then do
    printf [.text "TCP  FIN RECEIVED  ack=", .number connection.receiveNext.toNat, .text " state=",
      .text (tcpConnectionStateName connection.state), .text "\n"]
    return .leave (some (connection, response))
  else do
    printf (if incoming.hasFlag tcpFlagFin = true ∧ connection.pendingFin = true then
      [.text "TCP  FIN PENDING   seq=", .number connection.pendingFinSequence.toNat,
        .text " expected=", .number connection.receiveNext.toNat, .text "\n"] else [])
    return .again (connection, response)

/-- The loop of `run_http` with a segment. -/
def exchangeSegment (dev : Netdev) (targetIp : Ipv4Address) (nextHopMac : MacAddress)
    (memory : HttpMemory) (connection : TcpConnection) (response : ResponseBuffer)
    (incoming : TcpSegment) : Tool (Round Exchange (Option Exchange)) :=
  if incoming.hasFlag tcpFlagRst = true then do
    -- the connection is given up, whatever `tcp_connection_on_segment` makes of the segment
    eprintf [.text "TCP connection reset.\n"]
    return .leave none
  else
    let call := tcpConnectionOnSegment connection incoming
    if call.1 = -2 then do
      eprintf [.text "TCP receive/reassembly capacity exhausted.\n"]
      return .leave none
    else if call.1 < 0 then return .again (call.2, response)
    else do
      printf (arrivalLines incoming connection.receiveNext
        (tcpConnectionReassemblyCount connection) call.2)
      let drained ← deliver memory call.2 response
      if drained.1 ≠ 0 then do
        eprintf [.text "HTTP response too large.\n"]
        return .leave none
      else
        exchangeAnswer dev targetIp nextHopMac connection.state incoming drained.2.1 drained.2.2

/-- A round of the loop of `run_http`. -/
def exchangeRound (dev : Netdev) (targetIp : Ipv4Address) (nextHopMac : MacAddress)
    (memory : HttpMemory) (start : Timespec) (exchange : Exchange) :
    Tool (Round Exchange (Option Exchange)) := do
  match ← clockGettime with
  | none => return .leave none
  | some now =>
    if elapsedExceeds start now httpTimeoutMs then do
      eprintf [.text "HTTP response timed out.\n"]
      return .leave (some exchange)
    else
      match ← receiveTcpSegment dev targetIp tcpPollMs.toNat with
      | .failed => return .leave none
      | .expired => exchangeTick dev targetIp nextHopMac exchange.1 exchange.2
      | .got incoming =>
        exchangeSegment dev targetIp nextHopMac memory exchange.1 exchange.2 incoming

/-- The end of `run_http`: the answer of the connection to the FIN of the peer. -/
def sendFin (dev : Netdev) (targetIp : Ipv4Address) (nextHopMac : MacAddress)
    (connection : TcpConnection) : Tool Unit :=
  if connection.state = .closeWait then
    let emission := tcpConnectionBuildFin connection tcpWindowSize
    if emission.result = 0 then
      match emission.segment with
      | none => stop (.fault .read)
      | some fin => do
        printf [.text "\nTCP  FIN SEND     seq=", .number fin.sequenceNumber.toNat, .text " ack=",
          .number fin.acknowledgmentNumber.toNat, .text " state=",
          .text (tcpConnectionStateName emission.connection.state), .text "\n"]
        let _ ← sendTcpSegment dev targetIp nextHopMac fin
        return ()
    else return ()
  else return ()

/-- `run_http` behind its loop. -/
def finishHttp (dev : Netdev) (targetIp : Ipv4Address) (nextHopMac : MacAddress)
    (memory : HttpMemory) (exchange : Exchange) : Tool ℤ := do
  let drained ← deliver memory exchange.1 exchange.2
  if drained.1 ≠ 0 then return -1
  else if drained.2.2.length = 0 then do
    eprintf [.text "No HTTP response data received.\n"]
    return -1
  else do
    let report ← liftChecked
      (printHttpResponse memory.malloc memory.response drained.2.2.buffer drained.2.2.length)
    printf report.stdout
    eprintf report.stderr
    if report.returned ≠ 0 then return -1
    else do
      sendFin dev targetIp nextHopMac drained.2.1
      return 0

/-- `run_http` behind the request. -/
def receiveResponse (dev : Netdev) (targetIp : Ipv4Address) (nextHopMac : MacAddress)
    (memory : HttpMemory) (connection : TcpConnection) : Tool ℤ :=
  match memory.mallocResponse with
  | none => return -1
  | some responseData => do
    match ← clockGettime with
    | none => return -1
    | some start => do
      match ← foreverTimed (exchangeRound dev targetIp nextHopMac memory start)
          (connection, .empty responseData) with
      | none => return -1
      | some exchange => finishHttp dev targetIp nextHopMac memory exchange

/-- `run_http` behind the handshake. -/
def sendRequest (dev : Netdev) (targetIp : Ipv4Address) (nextHopMac : MacAddress)
    (memory : HttpMemory) (host path : List UInt8) (connection : TcpConnection) : Tool ℤ := do
  let built ← liftChecked (httpBuildGetRequest memory.request httpMaxRequestLen host path)
  if built.1 = 0 then return -1
  else do
    let request ← liftChecked (readRange built.2 0 built.1)
    let emission := tcpConnectionBuildData connection request tcpWindowSize
    if emission.result ≠ 0 then return -1
    else
      match emission.segment with
      | none => stop (.fault .read)
      | some requestSegment => do
        let path ← liftChecked (cString path 0)
        printf [.text "HTTP GET ", .bytes path, .text "\n"]
        printf [.text "TCP  SEND         seq=", .number requestSegment.sequenceNumber.toNat,
          .text " bytes=", .number built.1, .text " ack=",
          .number requestSegment.acknowledgmentNumber.toNat, .text "\n"]
        let sent ← sendTcpSegment dev targetIp nextHopMac requestSegment
        if sent ≠ 0 then return -1
        else receiveResponse dev targetIp nextHopMac memory emission.connection

/-- `run_http` -/
def runHttp (dev : Netdev) (targetIp : Ipv4Address) (nextHopMac : MacAddress)
    (memory : HttpMemory) (host path : List UInt8) : Tool ℤ := do
  let isn ← generateIsn
  let connected ← connectTcp dev targetIp nextHopMac
    (tcpConnectionInit httpSourcePort httpDestinationPort isn)
  if connected.1 ≠ 0 then return -1
  else sendRequest dev targetIp nextHopMac memory host path connected.2

end HttpTool

end Netstack
