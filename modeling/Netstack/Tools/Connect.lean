/-
# The handshake of `netstack_http`

`connect_tcp` of `tools/netstack_http.c` as a part of the session that it begins.

`Traffic` is what a function does to the host as far as segments are concerned: those that it hands
to the device, and those that it takes from there.  `connectTcp_spec` says that a connection is
handed on in the state in which the SYN-ACK that completed the handshake leaves it
(`TcpHandshake.of`), whatever came before, and that nothing but the SYN and the acknowledgment of
the SYN-ACK was sent.
-/

import Netstack.TcpConnection.Handshake
import Netstack.Tools.Http

namespace Netstack

section Goes

variable {segment : TcpSegment} {sourcePort destinationPort : BitVec 16}

/-- A segment without options has the header that `tcp_serialize` asks for. -/
theorem TcpSegment.Goes.hasHeader (h : segment.Goes sourcePort destinationPort) :
    segment.HasHeader := by
  refine ⟨?_, ?_, ?_⟩ <;> rw [h.dataOffset_eq]
  · decide
  · decide
  · rw [h.options_eq]
    rfl

/-- A frame of the segment is let through where a segment between these ports is expected. -/
theorem TcpSegment.Goes.arrives (h : segment.Goes sourcePort destinationPort) {dev peer : Netdev}
    {nextHopMac : MacAddress} {identification : BitVec 16} {frame pad : List UInt8}
    (hframe : tcpFrame dev peer.ipv4 nextHopMac identification segment = some frame)
    (hpad : (frame ++ pad).length ≤ 1514) :
    ∃ checksum, segmentFilter peer dev.ipv4 sourcePort destinationPort (frame ++ pad) =
      some { segment with checksum } := by
  obtain ⟨received, hfilter, hsame⟩ := segmentFilter_tcpFrame h.hasHeader hframe hpad
  rw [h.sourcePort_eq, h.destinationPort_eq] at hfilter
  exact ⟨received.checksum, hfilter.trans (congrArg some hsame)⟩

end Goes

namespace HttpTool

open Interaction
open Interaction.Program
open Transition (run)

/-! ### Traffic -/

section Traffic

variable (dev : Netdev) (targetIp : Ipv4Address) (nextHopMac : MacAddress)

/-- The frames that segments are sent in. -/
def wireFrames (segments : List TcpSegment) : List (List UInt8) :=
  segments.filterMap (tcpFrame dev targetIp nextHopMac 0x4854#16)

/-- The segments that the device has for the tool. -/
def segmentsIn (receptions : List Reception) : List TcpSegment :=
  incoming (fun bytes => .ok (receiveFilter dev targetIp bytes)) receptions

/-- Between two moments of a run the segments `sent` were handed to the device, and the segments
`received` taken from it. -/
structure Traffic (before after : Host) (sent received : List TcpSegment) : Prop where
  clock : after.clock <:+ before.clock
  frames : after.frames = before.frames ++ wireFrames dev targetIp nextHopMac sent
  received_eq : segmentsIn dev targetIp before.receptions =
    received ++ segmentsIn dev targetIp after.receptions
  stdout : before.stdout <+: after.stdout
  stderr : before.stderr <+: after.stderr

variable {dev targetIp nextHopMac} {host before after last : Host}
  {sent received sent' received' : List TcpSegment}

theorem Traffic.refl (host : Host) : Traffic dev targetIp nextHopMac host host [] [] :=
  ⟨List.suffix_rfl, (List.append_nil _).symm, rfl, List.prefix_rfl, List.prefix_rfl⟩

/-- What two parts of a run send and receive, one after the other. -/
theorem Traffic.trans (h : Traffic dev targetIp nextHopMac before after sent received)
    (h' : Traffic dev targetIp nextHopMac after last sent' received') :
    Traffic dev targetIp nextHopMac before last (sent ++ sent') (received ++ received') := by
  refine ⟨h'.clock.trans h.clock, ?_, ?_, h.stdout.trans h'.stdout, h.stderr.trans h'.stderr⟩
  · rw [h'.frames, h.frames, wireFrames, wireFrames, wireFrames, List.filterMap_append,
      List.append_assoc]
  · rw [h.received_eq, h'.received_eq, List.append_assoc]

/-- A call that neither sends nor receives. -/
theorem Traffic.local (h : Traffic dev targetIp nextHopMac before after sent received)
    (h' : Traffic dev targetIp nextHopMac after last [] []) :
    Traffic dev targetIp nextHopMac before last sent received := by
  have hall := h.trans h'
  rwa [List.append_nil, List.append_nil] at hall

theorem traffic_stdout {stdout : List Printed} :
    Traffic dev targetIp nextHopMac host { host with stdout := host.stdout ++ stdout } [] [] :=
  ⟨List.suffix_rfl, (List.append_nil _).symm, rfl, List.prefix_append .., List.prefix_rfl⟩

theorem traffic_stderr {stderr : List Printed} :
    Traffic dev targetIp nextHopMac host { host with stderr := host.stderr ++ stderr } [] [] :=
  ⟨List.suffix_rfl, (List.append_nil _).symm, rfl, List.prefix_rfl, List.prefix_append ..⟩

theorem traffic_clock {clock : List (Option Timespec)} {reading : Option Timespec}
    (h : host.clock = reading :: clock) :
    Traffic dev targetIp nextHopMac host { host with clock } [] [] :=
  ⟨h ▸ List.suffix_cons .., (List.append_nil _).symm, rfl, List.prefix_rfl, List.prefix_rfl⟩

/-- **`send_tcp_segment`** -/
theorem sendTcpSegment_spec (hopen : 0 ≤ dev.fd) (segment : TcpSegment) :
    wp (sendTcpSegment dev targetIp nextHopMac segment)
      (fun result after => Traffic dev targetIp nextHopMac host after [segment] [] ∧
        after.clock = host.clock ∧ (result = 0 → after.stderr = host.stderr))
      (fun e after => e = .waiting ∧ after = host) host := by
  refine wp_mono (sendTcp_spec hopen) (fun result after hsent => ?_) fun _ _ h => h
  obtain ⟨h, hzero⟩ := hsent
  refine ⟨⟨h.clock ▸ List.suffix_rfl, ?_, ?_, h.stdout ▸ List.prefix_rfl, h.stderr⟩, h.clock,
    fun hresult => (hzero hresult).1⟩
  · rw [h.frames, wireFrames]
    cases hframe : tcpFrame dev targetIp nextHopMac 0x4854#16 segment <;> simp [hframe]
  · rw [h.receptions, List.nil_append]

variable (nextHopMac) in
/-- **`receive_tcp_segment`** -/
theorem receiveTcpSegment_spec (timeoutMs : ℤ) :
    wp (receiveTcpSegment dev targetIp timeoutMs)
      (fun wait after => Traffic dev targetIp nextHopMac host after [] wait.taken ∧
        (wait ≠ .failed → after.stderr = host.stderr))
      (fun e after => e = .waiting ∧ Traffic dev targetIp nextHopMac host after [] []) host := by
  have htraffic : ∀ {before after : Host} {received : List TcpSegment}, before.Listens after →
      segmentsIn dev targetIp before.receptions =
        received ++ segmentsIn dev targetIp after.receptions →
      Traffic dev targetIp nextHopMac before after [] received := by
    intro before after received hlistens hreceived
    refine ⟨hlistens.clock, ?_, hreceived, hlistens.stdout ▸ List.prefix_rfl, hlistens.stderr⟩
    rw [hlistens.frames]
    exact (List.append_nil _).symm
  unfold receiveTcpSegment
  rw [wp_bind]
  refine wp_clockGettime (fun reading clock hclock => ?_) fun _ => ⟨rfl, .refl host⟩
  cases reading with
  | none => exact ⟨traffic_clock hclock, fun h => absurd rfl h⟩
  | some start =>
      have hfilter : IsFilter fun bytes => .ok (receiveFilter dev targetIp bytes) :=
        isFilter_of_total segmentFilter_nil
      have hclocked : Traffic dev targetIp nextHopMac host { host with clock } [] [] :=
        traffic_clock hclock
      refine wp_mono (awaitFrame_spec hfilter dev true start timeoutMs _)
        (fun wait after hawaited => ?_) fun e after hstop => ?_
      · exact ⟨hclocked.trans (htraffic hawaited.listens hawaited.incoming_eq),
          fun hne => hawaited.stderr rfl hne⟩
      · exact ⟨hstop.1, hclocked.trans (htraffic hstop.2.listens hstop.2.incoming_eq)⟩

/-- **`send_connection_ack`** -/
theorem sendConnectionAck_spec (hopen : 0 ≤ dev.fd) (connection : TcpConnection) :
    wp (sendConnectionAck dev targetIp nextHopMac connection)
      (fun result after => Traffic dev targetIp nextHopMac host after
          (tcpConnectionBuildAck connection tcpWindowSize).toList [] ∧
        after.clock = host.clock ∧ (result = 0 → after.stderr = host.stderr))
      (fun e after => e = .waiting ∧ after = host) host := by
  unfold sendConnectionAck
  cases tcpConnectionBuildAck connection tcpWindowSize with
  | none => exact ⟨.refl host, rfl, fun _ => rfl⟩
  | some ack => exact sendTcpSegment_spec hopen ack

end Traffic

/-! ### Sessions -/

/-- The SYN of a connection with this initial sequence number. -/
def synSegment (isn : BitVec 32) : TcpSegment :=
  (tcpWaiting httpSourcePort httpDestinationPort isn tcpWindowSize).lastSegment

/-- The SYN-ACK completes the handshake. -/
def Accepts (isn : BitVec 32) (synAck : TcpSegment) : Prop :=
  (tcpConnectionOnSegment (tcpWaiting httpSourcePort httpDestinationPort isn tcpWindowSize)
    synAck).1 = 1

/-- The handshake with it. -/
def handshake {isn : BitVec 32} {synAck : TcpSegment} (h : Accepts isn synAck) : TcpHandshake :=
  .of httpSourcePort httpDestinationPort isn tcpWindowSize synAck h

/-- What `netstack_http` sends for a request: its SYN, and parts of the request. -/
structure IsSent (isn : BitVec 32) (request : List UInt8) (segment : TcpSegment) : Prop where
  goes : segment.Goes httpSourcePort httpDestinationPort
  part : segment = synSegment isn ∨ segment.PartOf (isn + 1) request true

/-- The SYN is sent from the port of the tool to the port of the server. -/
theorem synSegment_goes (isn : BitVec 32) :
    (synSegment isn).Goes httpSourcePort httpDestinationPort := by
  obtain ⟨syn, hbuilt, -, hsyn, -⟩ :=
    tcpWaiting_cases httpSourcePort httpDestinationPort isn tcpWindowSize
  obtain ⟨hsource, hdestination, -⟩ := tcpBuild_eq_some hbuilt
  obtain ⟨hoffset, hoptions⟩ := tcpBuild_header hbuilt
  rw [synSegment, hsyn]
  exact ⟨hsource, hdestination, hoffset, hoptions⟩

/-- The connection after calls behind the handshake. -/
def endpointAfter {isn : BitVec 32} {synAck : TcpSegment} (h : Accepts isn synAck)
    (ops : List TcpOp) : TcpEndpoint :=
  run TcpEndpoint.step (handshake h).start ops

/-- One more call of the session. -/
theorem endpointAfter_append {isn : BitVec 32} {synAck : TcpSegment} (h : Accepts isn synAck)
    (ops : List TcpOp) (op : TcpOp) :
    endpointAfter h (ops ++ [op]) = (endpointAfter h ops).step op := by
  unfold endpointAfter
  rw [Transition.run_append, Transition.run_cons, Transition.run_nil]

section Sent

variable {isn : BitVec 32} {request : List UInt8} {synAck : TcpSegment}

/-- The SYN may be sent any number of times. -/
theorem isSent_replicate (n : ℕ) :
    ∀ segment ∈ List.replicate n (synSegment isn), IsSent isn request segment := by
  intro segment hsegment
  obtain rfl := List.eq_of_mem_replicate hsegment
  exact ⟨synSegment_goes isn, Or.inl rfl⟩

/-- Calls emit parts of the request, when it is all that was written in the end. -/
theorem isSent_emitted (h : Accepts isn synAck) {ops : List TcpOp}
    (calls : ∀ op ∈ ops, ∀ window, op ≠ .buildSyn window)
    (hwritten : (endpointAfter h ops).written <+: request)
    (hclosed : (endpointAfter h ops).closed = true → request = (endpointAfter h ops).written) :
    ∀ segment ∈ (endpointAfter h ops).emitted, IsSent isn request segment := by
  intro segment hsegment
  have hpart := ((handshake h).sendsParts_run ops calls).emitted segment hsegment
  exact ⟨((handshake h).addresses_run calls).emitted segment hsegment,
    Or.inr (hpart.mono hwritten fun h => ⟨rfl, hclosed h⟩)⟩

end Sent

section Connect

variable (dev : Netdev) (targetIp : Ipv4Address) (nextHopMac : MacAddress)

/-- What has happened when a function gives up or waits. -/
def GivenUp (isn : BitVec 32) (request : List UInt8) (host after : Host) : Prop :=
  ∃ sent received, Traffic dev targetIp nextHopMac host after sent received ∧
    ∀ segment ∈ sent, IsSent isn request segment

/-- What has happened when `connect_tcp` waits for the answer to its SYN. -/
structure Connecting (isn : BitVec 32) (host : Host) (connection : TcpConnection)
    (after : Host) : Prop where
  waits : connection.WaitsLike
    (tcpWaiting httpSourcePort httpDestinationPort isn tcpWindowSize)
  traffic : ∃ n received, Traffic dev targetIp nextHopMac host after
    (List.replicate n (synSegment isn)) received
  stderr : after.stderr = host.stderr

/-- What has happened when `connect_tcp` returns `0`. -/
def Connected (isn : BitVec 32) (host : Host) (connection : TcpConnection) (after : Host) : Prop :=
  ∃ n received synAck, ∃ h : Accepts isn synAck,
    Traffic dev targetIp nextHopMac host after
      (List.replicate n (synSegment isn) ++ (endpointAfter h [.buildAck tcpWindowSize]).emitted)
      (received ++ [synAck]) ∧
    connection = (handshake h).start.world.connection ∧ after.stderr = host.stderr

/-- What has happened when `connect_tcp` returns. -/
def ConnectReturns (isn : BitVec 32) (request : List UInt8) (host : Host)
    (result : ℤ × TcpConnection) (after : Host) : Prop :=
  if result.1 = 0 then Connected dev targetIp nextHopMac isn host result.2 after
  else GivenUp dev targetIp nextHopMac isn request host after

variable {dev targetIp nextHopMac} {isn : BitVec 32} {request : List UInt8}
  {host before after : Host} {connection : TcpConnection}

/-- While `connect_tcp` waits, SYNs are all that was sent. -/
theorem Connecting.givenUp (h : Connecting dev targetIp nextHopMac isn host connection before)
    {n : ℕ} {received : List TcpSegment}
    (h' : Traffic dev targetIp nextHopMac before after (List.replicate n (synSegment isn))
      received) : GivenUp dev targetIp nextHopMac isn request host after := by
  obtain ⟨m, earlier, htraffic⟩ := h.traffic
  refine ⟨_, earlier ++ received, htraffic.trans h', ?_⟩
  rw [List.replicate_append_replicate]
  exact isSent_replicate (m + n)

/-- The wait goes on. -/
theorem Connecting.next (h : Connecting dev targetIp nextHopMac isn host connection before)
    {next : TcpConnection} {n : ℕ} {received : List TcpSegment}
    (hnext : next.WaitsLike (tcpWaiting httpSourcePort httpDestinationPort isn tcpWindowSize))
    (h' : Traffic dev targetIp nextHopMac before after (List.replicate n (synSegment isn)) received)
    (hstderr : after.stderr = before.stderr) :
    Connecting dev targetIp nextHopMac isn host next after := by
  obtain ⟨m, earlier, htraffic⟩ := h.traffic
  refine ⟨hnext, ⟨m + n, earlier ++ received, ?_⟩, hstderr.trans h.stderr⟩
  rw [← List.replicate_append_replicate]
  exact htraffic.trans h'

/-- How a round of `connect_tcp` ends. -/
abbrev ConnectRound (dev : Netdev) (targetIp : Ipv4Address) (nextHopMac : MacAddress)
    (isn : BitVec 32) (request : List UInt8) (host before : Host) :
    Round TcpConnection (ℤ × TcpConnection) → Host → Prop :=
  RoundKeeps (Connecting dev targetIp nextHopMac isn host) (fun host => host.clock.length)
    (ConnectReturns dev targetIp nextHopMac isn request host) before

/-- The timer. -/
theorem connectTick_spec (hopen : 0 ≤ dev.fd)
    (h : Connecting dev targetIp nextHopMac isn host connection after)
    (hclock : after.clock.length < before.clock.length) :
    wp (connectTick dev targetIp nextHopMac connection)
      (ConnectRound dev targetIp nextHopMac isn request host before)
      (fun e after => e = .waiting ∧ GivenUp dev targetIp nextHopMac isn request host after) after := by
  unfold connectTick
  dsimp only
  rcases tick_waiting h.waits tcpPollMs with hfailed | ⟨hwaits, hquiet | ⟨hagain, hsegment⟩⟩
  · rw [if_pos hfailed]
    exact h.givenUp (n := 0) traffic_stderr
  · rw [if_neg (by omega), if_neg (by omega)]
    exact ⟨h.next (n := 0) hwaits (.refl after) rfl, hclock⟩
  · rw [if_neg (by omega), if_pos hagain, hsegment]
    dsimp only
    rw [wp_bind, wp_printf, wp_bind]
    refine wp_mono (sendTcpSegment_spec hopen _) (fun result last hsent => ?_)
      fun e last hstop => ?_
    · obtain ⟨htraffic, hticked, hstderr⟩ := hsent
      have hall := traffic_stdout.trans htraffic
      rw [wp_ite]
      split_ifs with hresult
      · exact h.givenUp (n := 1) hall
      · refine ⟨h.next (n := 1) hwaits hall (hstderr (not_not.1 hresult)), ?_⟩
        exact (congrArg List.length hticked).trans_lt hclock
    · obtain ⟨rfl, rfl⟩ := hstop
      exact ⟨rfl, h.givenUp (n := 0) traffic_stdout⟩

/-- What the call after the handshake emits. -/
theorem emitted_buildAck {synAck : TcpSegment} (h : Accepts isn synAck) :
    (endpointAfter h [.buildAck tcpWindowSize]).emitted =
      (tcpConnectionBuildAck (handshake h).start.world.connection tcpWindowSize).toList := rfl

/-- A segment, and what follows when the handshake is completed by it. -/
theorem connectSegment_spec (hopen : 0 ≤ dev.fd) {incoming : TcpSegment}
    (h : Connecting dev targetIp nextHopMac isn host connection before) {middle : Host}
    (h' : Traffic dev targetIp nextHopMac before after [] [incoming])
    (hstderr : after.stderr = before.stderr)
    (hclock : after.clock.length < middle.clock.length) :
    wp (connectSegment dev targetIp nextHopMac connection incoming)
      (ConnectRound dev targetIp nextHopMac isn request host middle)
      (fun e after => e = .waiting ∧ GivenUp dev targetIp nextHopMac isn request host after) after := by
  obtain ⟨-, -, -, -, hwaiting⟩ :=
    tcpWaiting_cases httpSourcePort httpDestinationPort isn tcpWindowSize
  unfold connectSegment
  dsimp only
  rcases onSegment_waiting h.waits hwaiting incoming with
    ⟨hresult, hwaits⟩ | ⟨hresult, hreset⟩ | ⟨hresult, hestablished, hsame⟩
  · -- the segment leaves the connection waiting
    have hnext := h.next (n := 0) hwaits h' hstderr
    by_cases hrejected : (tcpConnectionOnSegment connection incoming).1 < 0
    · rw [if_pos hrejected]
      exact ⟨hnext, hclock⟩
    · rw [if_neg hrejected, if_neg (by rw [hwaits.state]; decide),
        if_neg (by rw [hwaits.state]; decide)]
      exact connectTick_spec hopen hnext hclock
  · rw [if_neg (by omega), if_pos hreset]
    exact h.givenUp (n := 0) (h'.local traffic_stderr)
  · have haccepts : Accepts isn incoming := by
      unfold Accepts
      rw [hsame]
      exact hresult
    have hstart : (tcpConnectionOnSegment connection incoming).2 =
        (handshake haccepts).start.world.connection := by
      rw [← hsame]
      exact (TcpHandshake.of_start haccepts).symm
    obtain ⟨n, received, htraffic⟩ := h.traffic
    have hcame := htraffic.trans h'
    rw [if_neg (by omega), if_neg (by rw [hestablished]; decide), if_pos hestablished, hstart,
      wp_bind, wp_printf, wp_bind]
    refine wp_mono (sendConnectionAck_spec hopen _) (fun result last hsent => ?_)
      fun e last hstop => ?_
    · obtain ⟨hacked, -, herr⟩ := hsent
      have hall := (hcame.local traffic_stdout).trans hacked
      rw [List.append_nil, List.append_nil, ← emitted_buildAck haccepts] at hall
      rw [wp_ite]
      by_cases hfailed : result ≠ 0
      · rw [if_pos hfailed]
        have hopen : (endpointAfter haccepts [.buildAck tcpWindowSize]).closed = false := by
          show (handshake haccepts).start.world.history.sent = false
          rw [TcpHistory.sent, (handshake haccepts).start_opened.fin]
          rfl
        refine ⟨_, _, hall, List.forall_mem_append.2 ⟨isSent_replicate n, ?_⟩⟩
        exact isSent_emitted haccepts (by simp) List.nil_prefix
          fun h => absurd (hopen.symm.trans h) Bool.false_ne_true
      · rw [if_neg hfailed, wp_bind, wp_printf]
        refine ⟨n, received, incoming, haccepts, hall.local traffic_stdout, rfl, ?_⟩
        exact (herr (not_not.1 hfailed)).trans (hstderr.trans h.stderr)
    · obtain ⟨rfl, rfl⟩ := hstop
      exact ⟨rfl, h.givenUp (n := 0) (h'.local traffic_stdout)⟩

/-- A round of `connect_tcp`. -/
theorem connectRound_spec (hopen : 0 ≤ dev.fd) (start : Timespec)
    (h : Connecting dev targetIp nextHopMac isn host connection before) :
    wp (connectRound dev targetIp nextHopMac start connection)
      (ConnectRound dev targetIp nextHopMac isn request host before)
      (fun e after => e = .waiting ∧ GivenUp dev targetIp nextHopMac isn request host after) before := by
  unfold connectRound
  rw [wp_bind]
  refine wp_clockGettime (fun reading clock hclock => ?_) fun _ =>
    ⟨rfl, h.givenUp (n := 0) (.refl before)⟩
  have hticked : Traffic dev targetIp nextHopMac before { before with clock } [] [] :=
    traffic_clock hclock
  have hless : clock.length < before.clock.length := by
    rw [hclock]
    exact Nat.lt_succ_self _
  cases reading with
  | none => exact h.givenUp (n := 0) hticked
  | some now =>
      show wp (if elapsedExceeds start now tcpConnectTimeoutMs then _ else _) _ _ _
      rw [wp_ite]
      by_cases hexpired : elapsedExceeds start now tcpConnectTimeoutMs = true
      · rw [if_pos hexpired]
        exact h.givenUp (n := 0) (hticked.local traffic_stderr)
      rw [if_neg hexpired, wp_bind]
      refine wp_mono (receiveTcpSegment_spec nextHopMac _)
        (fun wait after hwait => ?_) fun e after hstop => ?_
      · obtain ⟨htraffic, hstderr⟩ := hwait
        have hall := hticked.trans htraffic
        have hleft : after.clock.length < before.clock.length :=
          (htraffic.clock.length_le).trans_lt hless
        cases wait with
        | failed => exact h.givenUp (n := 0) hall
        | expired =>
            exact connectTick_spec hopen (h.next (n := 0) h.waits hall (hstderr (by simp))) hleft
        | got incoming => exact connectSegment_spec hopen h hall (hstderr (by simp)) hleft
      · exact ⟨hstop.1, h.givenUp (n := 0) (hticked.trans hstop.2)⟩

/-- **`connect_tcp`** hands on the connection that the SYN-ACK leaves, and its acknowledgment was
sent; or it gives up, and SYNs are all that was sent, unless the acknowledgment failed. -/
theorem connectTcp_spec (hopen : 0 ≤ dev.fd) (isn : BitVec 32) (request : List UInt8)
    (ht : Traffic dev targetIp nextHopMac host before [] []) (hstderr : before.stderr = host.stderr) :
    wp (connectTcp dev targetIp nextHopMac
        (tcpConnectionInit httpSourcePort httpDestinationPort isn))
      (ConnectReturns dev targetIp nextHopMac isn request host)
      (fun e after => e = .waiting ∧ GivenUp dev targetIp nextHopMac isn request host after)
      before := by
  obtain ⟨syn, -, hbuilt, hsyn, hwaiting⟩ :=
    tcpWaiting_cases httpSourcePort httpDestinationPort isn tcpWindowSize
  have hbegin : Connecting dev targetIp nextHopMac isn host
      (tcpWaiting httpSourcePort httpDestinationPort isn tcpWindowSize) before :=
    ⟨hwaiting, ⟨0, [], ht⟩, hstderr⟩
  unfold connectTcp
  rw [hbuilt]
  dsimp only
  rw [if_neg (by decide), wp_bind, wp_printf, wp_bind]
  refine wp_mono (sendTcpSegment_spec hopen _) (fun result after hsent => ?_) fun e after hstop => ?_
  · obtain ⟨htraffic, -, hsilent⟩ := hsent
    rw [← hsyn] at htraffic
    have hall := traffic_stdout.trans htraffic
    rw [wp_ite]
    by_cases hfailed : result ≠ 0
    · rw [if_pos hfailed]
      exact hbegin.givenUp (n := 1) hall
    rw [if_neg hfailed, wp_bind]
    have hconnecting := hbegin.next (n := 1) hwaiting hall (hsilent (not_not.1 hfailed))
    refine wp_clockGettime (fun reading clock hclock => ?_) fun _ =>
      ⟨rfl, hconnecting.givenUp (n := 0) (.refl after)⟩
    have hticked : Traffic dev targetIp nextHopMac after { after with clock } [] [] :=
      traffic_clock hclock
    cases reading with
    | none => exact hconnecting.givenUp (n := 0) hticked
    | some start =>
        exact wp_forever (fun _ _ h => connectRound_spec hopen start h)
          (hconnecting.next (n := 0) hwaiting hticked rfl)
  · obtain ⟨rfl, rfl⟩ := hstop
    exact ⟨rfl, hbegin.givenUp (n := 0) traffic_stdout⟩

end Connect

end HttpTool
end Netstack
