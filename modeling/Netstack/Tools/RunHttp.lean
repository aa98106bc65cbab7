/-
# A run of `netstack_http`

`run_http` of `tools/netstack_http.c` from its first call to its last.

Whatever the host answers, and whether `malloc` and `realloc` give memory or not, the run does not
access memory outside of an array, its loops over memory end, and it does not send anything but its
SYN and parts of its request (`runHttp_sends`): it is an honest peer to whoever answers.  The loops
that wait for the peer read the clock in every round, so that a run that does not return has used
up the readings that the host had.
-/

import Netstack.Tools.Session

namespace Netstack

/-- Behind the bytes the array has a zero. -/
theorem ResponseBuffer.Holds.buffer_eq {response : ResponseBuffer} {bytes : List UInt8}
    (hholds : response.Holds bytes) :
    ∃ rest, response.buffer = bytes ++ 0 :: rest ∧
      (bytes ++ 0 :: rest).length ≤ maxObjectLen := by
  have hbuffer : response.buffer = bytes ++ 0 :: response.buffer.drop (response.length + 1) := by
    conv_lhs => rw [← List.take_append_drop (response.length + 1) response.buffer,
      hholds.string_eq, List.append_assoc]
    rfl
  refine ⟨_, hbuffer, ?_⟩
  rw [← hbuffer, hholds.length_buffer]
  exact hholds.bounded.trans (by decide)

namespace HttpTool

open Interaction
open Interaction.Program


section Run

variable {dev : Netdev} {targetIp : Ipv4Address} {nextHopMac : MacAddress} {isn : BitVec 32}
  {synAck : TcpSegment} {h : Accepts isn synAck} {request : List UInt8} {n : ℕ}
  {earlier : List TcpSegment} {host before after : Host} {ops : List TcpOp} {exchange : Exchange}
  {connection : TcpConnection} {response : ResponseBuffer} {memory : HttpMemory}

/-- What is reported about the bytes. -/
def IsReport (memory : HttpMemory) (bytes : List UInt8) (report : HttpReport) : Prop :=
  ∀ (response₀ : HttpResponse) (rest : List UInt8), (bytes ++ 0 :: rest).length ≤ maxObjectLen →
    printHttpResponse memory.malloc response₀ (bytes ++ 0 :: rest) bytes.length = .ok report

/-- There is a report about any bytes, since `print_http_response` ends without a fault. -/
theorem exists_isReport (hmemory : memory.IsSound) (bytes : List UInt8) :
    ∃ report, IsReport memory bytes report := by
  obtain ⟨size, report, failed, -, hreport⟩ := reports_printHttpResponse bytes
  exact ⟨if (memory.malloc size).isSome then report else failed, fun response₀ rest hobject =>
    hreport (⟨memory.malloc, hmemory.malloc⟩, response₀, ⟨rest, hobject⟩)⟩

/-- The FIN is a call, if there is one. -/
theorem sendFin_spec (hopen : 0 ≤ dev.fd)
    (hx : Exchanging dev targetIp nextHopMac h request n earlier host ops (connection, response)
      before) :
    wp (sendFin dev targetIp nextHopMac connection)
      (fun _ after => GivenUp dev targetIp nextHopMac isn request host after ∧
        before.stdout <+: after.stdout ∧ before.stderr <+: after.stderr)
      (fun e after => e = .waiting ∧ GivenUp dev targetIp nextHopMac isn request host after)
      before := by
  have hquiet : GivenUp dev targetIp nextHopMac isn request host before ∧
      before.stdout <+: before.stdout ∧ before.stderr <+: before.stderr :=
    ⟨hx.givenUp (.refl before), List.prefix_rfl, List.prefix_rfl⟩
  unfold sendFin
  by_cases hstate : connection.state = .closeWait
  swap
  · rw [if_neg hstate]
    exact hquiet
  rw [if_pos hstate]
  dsimp only
  rcases buildFin_cases connection tcpWindowSize with
    ⟨-, -, heq⟩ | ⟨state, -, segment, hcarries, heq⟩
  · rw [heq, if_neg (by decide : ¬(-1 : ℤ) = 0)]
    exact hquiet
  · have hcall : ∀ {last : Host}, Traffic dev targetIp nextHopMac before last [segment] [] →
        Exchanging dev targetIp nextHopMac h request n earlier host
          (ops ++ [.buildFin tcpWindowSize])
          ((tcpConnectionBuildFin connection tcpWindowSize).connection, response) last := by
      intro last ht
      refine hx.call (by simp) rfl ?_ ?_
      · rw [TcpOp.emits, heq]
        exact ht
      · have hconnection : (endpointAfter h ops).world.connection = connection := hx.connection
        rw [TcpWorld.step_history, TcpHistory.record, hconnection, heq]
        exact hx.holds
    rw [heq, if_pos rfl]
    dsimp only
    rw [wp_bind, wp_printf, wp_bind]
    refine wp_mono (sendTcpSegment_spec hopen segment) (fun result last hsent => ?_)
      fun e last hstop => ?_
    · have hall := traffic_stdout.trans hsent.1
      exact ⟨(hcall hall).givenUp (.refl last), hall.stdout, hall.stderr⟩
    · obtain ⟨rfl, rfl⟩ := hstop
      exact ⟨rfl, hx.givenUp traffic_stdout⟩

/-! ### Behind the loop -/

/-- The response was reported: before that it had been read to the end, and unless an error was
reported the peer had closed. -/
structure Reported (dev : Netdev) (targetIp : Ipv4Address) (nextHopMac : MacAddress)
    (h : Accepts isn synAck) (request : List UInt8) (n : ℕ) (earlier : List TcpSegment)
    (host : Host) (memory : HttpMemory) (ops : List TcpOp) (exchange : Exchange) (before after : Host)
    (report : HttpReport) : Prop where
  exchanging : Exchanging dev targetIp nextHopMac h request n earlier host ops exchange before
  drained : exchange.1.receiveReady = []
  closed : before.stderr = host.stderr → exchange.1.state = .closeWait
  isReport : IsReport memory (endpointAfter h ops).world.history.delivered report
  returned : report.returned = 0
  stdout : before.stdout ++ report.stdout <+: after.stdout
  stderr : before.stderr ++ report.stderr <+: after.stderr

/-- What has happened when `run_http` returns behind its handshake. -/
def RunReturns (dev : Netdev) (targetIp : Ipv4Address) (nextHopMac : MacAddress)
    (h : Accepts isn synAck) (request : List UInt8) (n : ℕ) (earlier : List TcpSegment)
    (host : Host) (memory : HttpMemory) (result : ℤ) (after : Host) : Prop :=
  GivenUp dev targetIp nextHopMac isn request host after ∧
    (result = 0 → ∃ ops exchange before report, Reported dev targetIp nextHopMac h request n earlier
      host memory ops exchange before after report)

/-- `run_http` behind its loop. -/
theorem finishHttp_spec (hopen : 0 ≤ dev.fd) (hmemory : memory.IsSound)
    (hx : Exchanging dev targetIp nextHopMac h request n earlier host ops exchange before)
    (hclosed : before.stderr = host.stderr → exchange.1.state = .closeWait) :
    wp (finishHttp dev targetIp nextHopMac memory exchange)
      (RunReturns dev targetIp nextHopMac h request n earlier host memory)
      (fun e after => e = .waiting ∧ GivenUp dev targetIp nextHopMac isn request host after)
      before := by
  have hfailed : (-1 : ℤ) ≠ 0 := by decide
  obtain ⟨connection, response⟩ := exchange
  unfold finishHttp
  rw [wp_bind]
  refine wp_mono (hx.deliver hmemory) (fun drained after hdrained => ?_) fun _ _ h => h.elim
  obtain ⟨htraffic, -, hsilent, hzero⟩ := hdrained
  rw [wp_ite]
  by_cases hresult : drained.1 ≠ 0
  · rw [if_pos hresult]
    exact ⟨hx.givenUp htraffic, fun h => absurd h hfailed⟩
  obtain ⟨hleft, hall⟩ := hzero (not_not.1 hresult)
  rw [if_neg hresult, wp_ite]
  by_cases hempty : drained.2.2.length = 0
  · rw [if_pos hempty]
    exact ⟨hall.givenUp traffic_stderr, fun h => absurd h hfailed⟩
  obtain ⟨report, hreport⟩ := exists_isReport hmemory
    (endpointAfter h (ops ++ [.read connection.receiveReady.length])).world.history.delivered
  obtain ⟨rest, hbuffer, hobject⟩ := hall.holds.buffer_eq
  have hprinted : printHttpResponse memory.malloc memory.response drained.2.2.buffer
      drained.2.2.length = .ok report := by
    rw [hbuffer, hall.holds.length_eq]
    exact hreport memory.response rest hobject
  rw [if_neg hempty, wp_bind, wp_liftChecked hprinted, wp_bind, wp_printf, wp_bind, wp_eprintf]
  have hshown : Exchanging dev targetIp nextHopMac h request n earlier host
      (ops ++ [.read connection.receiveReady.length]) drained.2
      { after with stdout := after.stdout ++ report.stdout, stderr := after.stderr ++ report.stderr } :=
    hall.local (traffic_stdout.local traffic_stderr)
  rw [wp_ite]
  by_cases hreturned : report.returned ≠ 0
  · rw [if_pos hreturned]
    exact ⟨hshown.givenUp (.refl _), fun h => absurd h hfailed⟩
  · rw [if_neg hreturned, wp_bind]
    refine wp_mono (sendFin_spec hopen hshown) (fun _ last hsent => ?_) fun _ _ h => h
    obtain ⟨hgiven, hstdout, hstderr⟩ := hsent
    refine ⟨hgiven, fun _ => ⟨_, drained.2, after, report, hall, ?_, fun hquiet => ?_, hreport,
      not_not.1 hreturned, hstdout, hstderr⟩⟩
    · rw [hleft]
    · rw [hleft]
      exact hclosed (hsilent.symm.trans hquiet)

/-- `run_http` behind the request. -/
theorem receiveResponse_spec (hopen : 0 ≤ dev.fd) (hmemory : memory.IsSound)
    (hx : Calling dev targetIp nextHopMac h request n earlier host ops connection before)
    (hnone : (endpointAfter h ops).world.history.delivered = [])
    (hstderr : before.stderr = host.stderr) :
    wp (receiveResponse dev targetIp nextHopMac memory connection)
      (RunReturns dev targetIp nextHopMac h request n earlier host memory)
      (fun e after => e = .waiting ∧ GivenUp dev targetIp nextHopMac isn request host after)
      before := by
  have hfailed : (-1 : ℤ) ≠ 0 := by decide
  unfold receiveResponse
  cases harray : memory.mallocResponse with
  | none => exact ⟨hx.givenUp (.refl before), fun h => absurd h hfailed⟩
  | some array =>
      have hempty := ResponseBuffer.holds_empty (hmemory.mallocResponse array (by simp [harray]))
      have hbegin : Exchanging dev targetIp nextHopMac h request n earlier host ops
          (connection, .empty array) before := ⟨hx, hnone ▸ hempty⟩
      dsimp only
      rw [wp_bind]
      refine wp_clockGettime (fun reading clock hclock => ?_) fun _ =>
        ⟨rfl, hx.givenUp (.refl before)⟩
      have hticked : Traffic dev targetIp nextHopMac before { before with clock } [] [] :=
        traffic_clock hclock
      cases reading with
      | none => exact ⟨hbegin.givenUp hticked, fun h => absurd h hfailed⟩
      | some start =>
          dsimp only
          rw [wp_bind]
          refine wp_mono (wp_forever (fun exchange _ hround =>
            exchangeRound_spec hopen hmemory start hround.1.choose_spec hround.2)
            ⟨⟨ops, hbegin.local hticked⟩, hstderr⟩) (fun left after hleft => ?_) fun _ _ h => h
          cases left with
          | none => exact ⟨hleft, fun h => absurd h hfailed⟩
          | some exchange =>
              obtain ⟨ops, hlast, hclosed⟩ := hleft
              exact finishHttp_spec hopen hmemory hlast hclosed

/-! ### From the beginning -/

/-- Nothing was read during the handshake. -/
theorem start_delivered {isn : BitVec 32} {synAck : TcpSegment} (h : Accepts isn synAck) :
    (handshake h).start.world.history.delivered = [] := by
  have hblank := ((handshake h).session [] (by decide)).start_blank
  exact (List.append_eq_nil_iff.1 hblank.bytes).1

/-- Nothing has been closed when the handshake was acknowledged. -/
theorem closed_buildAck {isn : BitVec 32} {synAck : TcpSegment} (h : Accepts isn synAck) :
    (endpointAfter h [.buildAck tcpWindowSize]).closed = false := by
  show (handshake h).start.world.history.sent = false
  rw [TcpHistory.sent, (handshake h).start_opened.fin]
  rfl

/-- `run_http` behind the handshake. -/
theorem sendRequest_spec (hopen : 0 ≤ dev.fd) (hmemory : memory.IsSound)
    {hostName pathName hostArg pathArg : List UInt8} (hhost : cString hostArg 0 = .ok hostName)
    (hpath : cString pathArg 0 = .ok pathName)
    (hx : Calling dev targetIp nextHopMac h [] n earlier host [.buildAck tcpWindowSize] connection
      before) (hstderr : before.stderr = host.stderr) :
    wp (sendRequest dev targetIp nextHopMac memory hostArg pathArg connection)
      (RunReturns dev targetIp nextHopMac h (requestText pathName hostName) n earlier host memory)
      (fun e after => e = .waiting ∧
        GivenUp dev targetIp nextHopMac isn (requestText pathName hostName) host after)
      before := by
  have hfailed : (-1 : ℤ) ≠ 0 := by decide
  have hgiven : ∀ {after : Host}, Traffic dev targetIp nextHopMac before after [] [] →
      GivenUp dev targetIp nextHopMac isn (requestText pathName hostName) host after := by
    intro after ht
    refine hx.givenUp_of_prefix List.nil_prefix (fun hfin => ?_) ht
    exact absurd ((closed_buildAck h).symm.trans hfin) Bool.false_ne_true
  obtain ⟨length, left, hbuilt, -, htext⟩ := httpBuildGetRequest_eq hhost hpath
    (hmemory.request.ge : httpMaxRequestLen ≤ memory.request.length)
  unfold sendRequest
  rw [wp_bind, wp_liftChecked hbuilt, wp_ite]
  by_cases hnone : length = 0
  · rw [if_pos hnone]
    exact ⟨hgiven (.refl before), fun h => absurd h hfailed⟩
  obtain ⟨hlength, hleft⟩ := htext hnone
  have hroom : length + 1 ≤ left.length := by
    have hcut := congrArg List.length hleft
    rw [List.length_take, List.length_append, List.length_singleton] at hcut
    omega
  have hread : readRange left 0 length = .ok (requestText pathName hostName) := by
    rw [readRange_of_le (by omega), List.drop_zero]
    have hcut := congrArg (List.take length) hleft
    rw [List.take_take, Nat.min_eq_left (Nat.le_succ _)] at hcut
    rw [hcut, hlength, List.take_left]
  rw [if_neg hnone, wp_bind, wp_liftChecked hread]
  dsimp only
  rcases buildData_cases connection (requestText pathName hostName) tcpWindowSize with
    ⟨-, heq⟩ | ⟨-, -, segment, hcarries, heq⟩
  · rw [heq, if_pos (by decide : (-1 : ℤ) ≠ 0)]
    exact ⟨hgiven (.refl before), fun h => absurd h hfailed⟩
  · have hcall : ∀ {last : Host}, Traffic dev targetIp nextHopMac before last [segment] [] →
        Calling dev targetIp nextHopMac h (requestText pathName hostName) n earlier host
          [.buildAck tcpWindowSize, .buildData (requestText pathName hostName) tcpWindowSize]
          (connection.sent segment .established) last := by
      intro last ht
      have hdata := @Calling.call dev targetIp nextHopMac isn synAck h [] n earlier host
        [.buildAck tcpWindowSize] connection before last hx
        (.buildData (requestText pathName hostName) tcpWindowSize) (requestText pathName hostName)
        (by simp) (by rw [TcpOp.writes, heq, if_pos rfl, List.nil_append])
        (by rw [TcpOp.emits, heq]; exact ht)
      rw [TcpOp.effect, heq] at hdata
      exact hdata
    have hdelivered : (endpointAfter h [.buildAck tcpWindowSize,
        .buildData (requestText pathName hostName) tcpWindowSize]).world.history.delivered = [] := by
      have hconnection : (handshake h).start.world.connection = connection := hx.connection
      show ((handshake h).start.world.history.record (handshake h).start.world.connection
        (.buildData (requestText pathName hostName) tcpWindowSize)).delivered = []
      rw [TcpHistory.record, hconnection, heq]
      exact start_delivered h
    rw [heq, if_neg (not_not.2 rfl)]
    dsimp only
    rw [wp_bind, wp_liftChecked hpath, wp_bind, wp_printf, wp_bind, wp_printf, wp_bind]
    refine wp_mono (sendTcpSegment_spec hopen segment) (fun result last hsent => ?_)
      fun e last hstop => ?_
    · obtain ⟨htraffic, -, hsilent⟩ := hsent
      have hnext := hcall ((traffic_stdout.local traffic_stdout).trans htraffic)
      rw [wp_ite]
      by_cases hresult : result ≠ 0
      · rw [if_pos hresult]
        exact ⟨hnext.givenUp (.refl last), fun h => absurd h hfailed⟩
      · rw [if_neg hresult]
        exact receiveResponse_spec hopen hmemory hnext hdelivered
          ((hsilent (not_not.1 hresult)).trans hstderr)
    · obtain ⟨rfl, rfl⟩ := hstop
      exact ⟨rfl, hgiven (traffic_stdout.local traffic_stdout)⟩

/-- What `generate_isn` makes of the first reading of the clock. -/
def isnOf (host : Host) : BitVec 32 :=
  match host.clock with
  | some now :: _ => mixIsn now
  | _ => 0x42424242#32

/-- What has happened when `run_http` returns. -/
def HttpReturns (dev : Netdev) (targetIp : Ipv4Address) (nextHopMac : MacAddress)
    (request : List UInt8) (memory : HttpMemory) (host : Host) (result : ℤ) (after : Host) : Prop :=
  GivenUp dev targetIp nextHopMac (isnOf host) request host after ∧
    (result = 0 → ∃ synAck, ∃ h : Accepts (isnOf host) synAck,
      ∃ n earlier ops exchange before report, Reported dev targetIp nextHopMac h request n
        (earlier ++ [synAck]) host memory ops exchange before after report)

variable (dev targetIp nextHopMac) in
/-- The initial sequence number is made from one reading of the clock, and nothing else is done
to the host. -/
theorem generateIsn_spec (host : Host) :
    wp generateIsn
      (fun isn after => isn = isnOf host ∧ Traffic dev targetIp nextHopMac host after [] [] ∧
        after.stderr = host.stderr)
      (fun e after => e = .waiting ∧ after = host) host := by
  unfold generateIsn
  rw [wp_bind]
  refine wp_clockGettime (fun reading clock hclock => ?_) fun _ => ⟨rfl, rfl⟩
  cases reading with
  | none => exact ⟨by rw [isnOf, hclock], traffic_clock hclock, rfl⟩
  | some now => exact ⟨by rw [isnOf, hclock], traffic_clock hclock, rfl⟩

/-- **`run_http`**, whatever the host answers. -/
theorem runHttp_spec (hopen : 0 ≤ dev.fd) (hmemory : memory.IsSound)
    {hostName pathName hostArg pathArg : List UInt8} (hhost : cString hostArg 0 = .ok hostName)
    (hpath : cString pathArg 0 = .ok pathName) (host : Host) :
    wp (runHttp dev targetIp nextHopMac memory hostArg pathArg)
      (HttpReturns dev targetIp nextHopMac (requestText pathName hostName) memory host)
      (fun e after => e = .waiting ∧ GivenUp dev targetIp nextHopMac (isnOf host)
        (requestText pathName hostName) host after) host := by
  have hfailed : (-1 : ℤ) ≠ 0 := by decide
  unfold runHttp
  rw [wp_bind]
  refine wp_mono (generateIsn_spec dev targetIp nextHopMac host) (fun isn before hisn => ?_) fun e before hstop => ?_
  · obtain ⟨rfl, ht, hstderr⟩ := hisn
    rw [wp_bind]
    refine wp_mono (connectTcp_spec hopen (isnOf host) (requestText pathName hostName) ht hstderr)
      (fun connected after hconnected => ?_) fun _ _ h => h
    unfold ConnectReturns at hconnected
    rw [wp_ite]
    by_cases hresult : connected.1 ≠ 0
    · rw [if_neg hresult] at hconnected
      rw [if_pos hresult]
      exact ⟨hconnected, fun h => absurd h hfailed⟩
    · rw [if_pos (not_not.1 hresult)] at hconnected
      rw [if_neg hresult]
      obtain ⟨n, earlier, synAck, h, htraffic, hconnection, hsilent⟩ := hconnected
      have hx : Calling dev targetIp nextHopMac h [] n (earlier ++ [synAck]) host
          [.buildAck tcpWindowSize] connected.2 after :=
        ⟨by simp, (List.append_nil (earlier ++ [synAck])).symm ▸ htraffic, rfl, hconnection.symm⟩
      refine wp_mono (sendRequest_spec hopen hmemory hhost hpath hx hsilent)
        (fun result last hlast => ⟨hlast.1, fun hzero => ?_⟩) fun _ _ h => h
      obtain ⟨ops, exchange, before, report, hreported⟩ := hlast.2 hzero
      exact ⟨synAck, h, n, earlier, ops, exchange, before, report, hreported⟩
  · obtain ⟨rfl, rfl⟩ := hstop
    exact ⟨rfl, [], [], .refl before, fun _ hsegment => absurd hsegment List.not_mem_nil⟩

/-- What was sent arrives. -/
theorem IsSent.arrives {peer : Netdev} {segment : TcpSegment} {frame pad : List UInt8}
    (hsent : IsSent isn request segment)
    (hframe : tcpFrame dev peer.ipv4 nextHopMac 0x4854#16 segment = some frame)
    (hpad : (frame ++ pad).length ≤ 1514) :
    ∃ checksum, segmentFilter peer dev.ipv4 httpSourcePort httpDestinationPort (frame ++ pad) =
      some { segment with checksum } :=
  hsent.goes.arrives hframe hpad

/-- **Whatever the host answers**, and whatever memory there is, the run returns or ends waiting for
another answer of the host: it does not leave an array and does not stay in a loop over memory.  A
peer that makes all the checks of the stack reads nothing from its frames but the SYN and parts of
the request. -/
theorem runHttp_sends {peer : Netdev} (hopen : 0 ≤ dev.fd) (hmemory : memory.IsSound)
    {hostName pathName hostArg pathArg : List UInt8} (hhost : cString hostArg 0 = .ok hostName)
    (hpath : cString pathArg 0 = .ok pathName) (host : Host) :
    (∀ fault, (runHttp dev peer.ipv4 nextHopMac memory hostArg pathArg host).1 ≠
        .error (.fault fault)) ∧
      ∃ frames, (runHttp dev peer.ipv4 nextHopMac memory hostArg pathArg host).2.frames =
          host.frames ++ frames ∧
        ∀ frame ∈ frames, ∀ pad, (frame ++ pad).length ≤ 1514 → ∃ segment checksum,
          IsSent (isnOf host) (requestText pathName hostName) segment ∧
            segmentFilter peer dev.ipv4 httpSourcePort httpDestinationPort (frame ++ pad) =
              some { segment with checksum } := by
  have hspec := @runHttp_spec dev peer.ipv4 nextHopMac memory hopen hmemory _ _ _ _ hhost hpath host
  have hsafe : ∀ fault, (runHttp dev peer.ipv4 nextHopMac memory hostArg pathArg host).1 ≠
      .error (.fault fault) := by
    intro fault hfault
    cases (hspec.stopped hfault).1
  obtain ⟨sent, received, htraffic, hsent⟩ : GivenUp dev peer.ipv4 nextHopMac (isnOf host)
      (requestText pathName hostName) host
      (runHttp dev peer.ipv4 nextHopMac memory hostArg pathArg host).2 :=
    wp.after (P := GivenUp dev peer.ipv4 nextHopMac (isnOf host) (requestText pathName hostName) host)
      hspec (fun _ _ hreturned => hreturned.1) fun _ _ hstopped => hstopped.2
  refine ⟨hsafe, _, htraffic.frames, fun frame hframe pad hpad => ?_⟩
  obtain ⟨segment, hsegment, hwire⟩ := List.mem_filterMap.1 hframe
  obtain ⟨checksum, harrives⟩ := (hsent segment hsegment).arrives hwire hpad
  exact ⟨segment, checksum, hsent segment hsegment, harrives⟩

end Run

/-- Memory that holds zeros, of which there is enough. -/
def zeroMemory : HttpMemory where
  request := List.replicate httpMaxRequestLen 0
  buffer := List.replicate tcpAppReadBuffer 0
  response := .zeroed
  mallocResponse := some (List.replicate httpResponseInitialCapacity 0)
  malloc := fun n => some (List.replicate n 0)
  realloc := zeroRealloc

/-- Memory that holds zeros is one of those that the theorems speak of. -/
theorem zeroMemory_isSound : zeroMemory.IsSound where
  request := List.length_replicate
  buffer := List.length_replicate
  statusText := rfl
  mallocResponse := fun array harray => by
    obtain rfl := Option.some.inj harray
    exact List.length_replicate
  malloc := allocates_replicate.may
  realloc := reallocates_zeroRealloc.may

/-- Garbage and an interruption, while the SYN is sent twice. -/
def noisyHost : Host where
  clock := [some ⟨1, 5⟩, some ⟨1, 6⟩, some ⟨1, 7⟩, some ⟨1, 8⟩, some ⟨1, 9⟩, some ⟨5, 0⟩]
  receptions := [.interrupted, .frame [1, 2, 3], .timedOut]
  sends := [none, some "No buffer space available"]
  frames := []
  stdout := []
  stderr := []

theorem runHttp_sends_noisy :
    (∀ fault, (runHttp testDevice testPeer.ipv4 testPeer.mac zeroMemory [97, 0] [47, 0] noisyHost).1 ≠
        .error (.fault fault)) ∧
      ∃ frames, (runHttp testDevice testPeer.ipv4 testPeer.mac zeroMemory [97, 0] [47, 0]
          noisyHost).2.frames = noisyHost.frames ++ frames ∧
        ∀ frame ∈ frames, ∀ pad, (frame ++ pad).length ≤ 1514 → ∃ segment checksum,
          IsSent (isnOf noisyHost) (requestText [47] [97]) segment ∧
            segmentFilter testPeer testDevice.ipv4 httpSourcePort httpDestinationPort
              (frame ++ pad) = some { segment with checksum } :=
  runHttp_sends (by decide) zeroMemory_isSound (by decide) (by decide) noisyHost

end HttpTool
end Netstack
