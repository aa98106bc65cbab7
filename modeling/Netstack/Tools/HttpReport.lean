/-
# What `netstack_http` reports

A peer that is going to send a stream says its SYN and parts of the stream, in whatever order, how
often and however cut (`TcpSegment.IsSaid`).  What `run_http` reports then is the report on a
beginning of the stream, and on the whole stream when no error was printed (`runHttp_reports`):
the FIN is behind the last byte, and `run_http` does not leave its loop before it.
-/

import Netstack.Tools.Delivery
import Netstack.Tools.RunHttp

namespace Netstack

open Interaction
open Interaction.Program
open Transition (run Along)

/-- What a peer says that has this initial sequence number and is going to send the stream. -/
inductive TcpSegment.IsSaid (initialSequence : BitVec 32) (stream : List UInt8)
    (segment : TcpSegment) : Prop
  | syn (flag : segment.hasFlag tcpFlagSyn = true) (noRst : segment.hasFlag tcpFlagRst = false)
      (noFin : segment.hasFlag tcpFlagFin = false) (payload : segment.payload = [])
      (sequence : segment.sequenceNumber = initialSequence)
  | part (h : segment.PartOf (initialSequence + 1) stream true)

/-- A SYN-ACK has the SYN flag. -/
theorem TcpSegment.hasFlag_syn_of_isSynAck {segment : TcpSegment} (h : segment.isSynAck = true) :
    segment.hasFlag tcpFlagSyn = true := by
  rw [TcpSegment.isSynAck, beq_iff_eq] at h
  rw [TcpSegment.hasFlag, bne_iff_ne]
  intro hzero
  have hboth := congrArg (· &&& tcpFlagSyn) h
  have hsame : (tcpFlagSyn ||| tcpFlagAck) &&& tcpFlagSyn = tcpFlagSyn := by decide
  simp only [BitVec.and_assoc, hsame, hzero] at hboth
  exact absurd hboth (by decide)

/-- Only a SYN-ACK completes a handshake. -/
theorem OnSegment.isSynAck_of_result {segment : TcpSegment} {connection last : TcpConnection}
    {result : ℤ} {n : ℕ} (h : OnSegment segment connection result n last) (hone : result = 1) :
    segment.isSynAck = true := by
  cases h with
  | opened _ _ _ synAck => exact synAck
  | misaddressed | aborted | unanswered | mismatched | ignored | refused | received =>
      exact absurd hone (by decide)

section Said

variable {initialSequence : BitVec 32} {stream : List UInt8} {segment : TcpSegment}

/-- Behind the handshake a SYN that comes again is a bare acknowledgment. -/
theorem TcpSegment.IsSaid.withoutSyn (h : segment.IsSaid initialSequence stream) :
    segment.withoutSyn.PartOf (initialSequence + 1) stream true := by
  have hnoSyn : segment.withoutSyn.hasFlag tcpFlagSyn = false := by
    have hzero : ~~~tcpFlagSyn &&& tcpFlagSyn = 0#8 := by decide
    rw [TcpSegment.hasFlag, TcpSegment.withoutSyn, BitVec.and_assoc, hzero, BitVec.and_zero]
    rfl
  cases h with
  | syn flag noRst noFin payload sequence =>
      refine ⟨?_, hnoSyn, 2 ^ 32 - 1, ?_, ?_, fun hfin => ?_⟩
      · rw [TcpSegment.withoutSyn_hasFlag (by decide)]
        exact noRst
      · show segment.sequenceNumber = _
        rw [sequence, BitVec.add_assoc]
        exact (BitVec.add_zero _).symm
      · show Stream.Slice stream _ segment.payload
        rw [payload]
        exact slice_nil _ _
      · rw [TcpSegment.withoutSyn_hasFlag (by decide), noFin] at hfin
        exact absurd hfin Bool.false_ne_true
  | part h =>
      refine ⟨?_, hnoSyn, ?_⟩
      · rw [TcpSegment.withoutSyn_hasFlag (by decide)]
        exact h.noRst
      · obtain ⟨offset, hseq, hslice, hfin⟩ := h.slice
        refine ⟨offset, hseq, hslice, fun hflag => hfin ?_⟩
        rwa [TcpSegment.withoutSyn_hasFlag (by decide)] at hflag

/-- The SYN of the segments that are said. -/
theorem TcpSegment.IsSaid.sequence (h : segment.IsSaid initialSequence stream)
    (hsyn : segment.hasFlag tcpFlagSyn = true) :
    segment.sequenceNumber = initialSequence ∧ segment.payload = [] := by
  cases h with
  | syn _ _ _ payload sequence => exact ⟨sequence, payload⟩
  | part h => exact absurd (h.noSyn.symm.trans hsyn) Bool.false_ne_true

end Said

namespace HttpTool

/-- The segment that completes a handshake has the SYN flag. -/
theorem Accepts.hasFlag_syn {isn : BitVec 32} {synAck : TcpSegment} (h : Accepts isn synAck) :
    synAck.hasFlag tcpFlagSyn = true := by
  have hclosing := (TcpWorld.closing_init httpSourcePort httpDestinationPort isn).step
    (.buildSyn tcpWindowSize)
  exact TcpSegment.hasFlag_syn_of_isSynAck
    ((onSegment_spec synAck hclosing.bounded).isSynAck_of_result h)

/-! ### The receive side of a run -/

section Receive

variable {isn initialSequence : BitVec 32} {synAck : TcpSegment} {stream : List UInt8}

/-- What carries the induction over the calls: reception is in order, and the states mean what
they say. -/
structure Receives (h : Accepts isn synAck) (hlen : stream.length + 1 < 2 ^ 31)
    (endpoint : TcpEndpoint) : Prop where
  orderly : ((handshake h).session stream hlen).Orderly endpoint.world
  closing : endpoint.world.Closing
  established : endpoint.world.history.established = true

/-- A call keeps it, when the segment that it takes was said. -/
theorem Receives.step {h : Accepts isn synAck} {hlen : stream.length + 1 < 2 ^ 31}
    (hsequence : synAck.sequenceNumber = initialSequence) {endpoint : TcpEndpoint} {op : TcpOp}
    (hinv : Receives h hlen endpoint) (hop : ∀ window, op ≠ .buildSyn window)
    (hsaid : ∀ segment, op = .onSegment segment → segment.IsSaid initialSequence stream) :
    Receives h hlen (endpoint.step op) := by
  have hstate : endpoint.world.connection.state ≠ .synSent := fun heq =>
    absurd ((hinv.closing.opening heq).1.symm.trans hinv.established) Bool.false_ne_true
  by_cases hseg : ∃ segment, op = .onSegment segment
  · obtain ⟨segment, rfl⟩ := hseg
    have hhonest : ((handshake h).session stream hlen).Honest segment.withoutSyn :=
      (hsaid segment rfl).withoutSyn.honest (congrArg (· + 1) hsequence) hlen
    have hallows : ((handshake h).session stream hlen).Allows (.onSegment segment.withoutSyn) :=
      hhonest
    refine ⟨?_, hinv.closing.step _, ?_⟩
    · rw [TcpEndpoint.step_world, ← TcpWorld.step_withoutSyn hstate]
      exact hinv.orderly.step hallows
    · rw [TcpEndpoint.step_world, TcpWorld.step_history, TcpHistory.record_onSegment,
        TcpHistory.received_established, hinv.established]
      rfl
  · have hne : ∀ segment, op ≠ .onSegment segment := fun segment heq => hseg ⟨segment, heq⟩
    have hallows : ((handshake h).session stream hlen).Allows op := by
      cases op with
      | buildSyn window => exact absurd rfl (hop window)
      | onSegment segment => exact absurd rfl (hne segment)
      | buildAck | buildData | buildFin | tick | read => trivial
    refine ⟨hinv.orderly.step hallows, hinv.closing.step _, ?_⟩
    exact (endpoint.world.history.record_peer endpoint.world.connection hne hop).2.trans
      hinv.established

/-- **Behind the handshake** it holds after any calls that take what was said. -/
theorem receives_run (h : Accepts isn synAck) (hlen : stream.length + 1 < 2 ^ 31)
    (hsequence : synAck.sequenceNumber = initialSequence) {ops : List TcpOp}
    (hcalls : ∀ op ∈ ops, ∀ window, op ≠ .buildSyn window)
    (hsaid : ∀ segment ∈ TcpOp.segments ops, segment.IsSaid initialSequence stream) :
    Receives h hlen (endpointAfter h ops) := by
  have hblank := ((handshake h).session stream hlen).start_blank
  have hops : Along TcpEndpoint.step (fun _ op => (∀ window, op ≠ .buildSyn window) ∧
      ∀ segment, op = .onSegment segment → segment.IsSaid initialSequence stream)
      (handshake h).start ops := by
    refine Transition.along_of_forall fun op hop => ⟨hcalls op hop, fun segment heq => ?_⟩
    exact hsaid segment (List.mem_filterMap.2 ⟨op, hop, by rw [heq]⟩)
  exact hops.run_invariant (I := fun endpoint : TcpEndpoint => Receives h hlen endpoint)
    (fun _ _ hinv hop => hinv.step hsequence hop.1 hop.2)
    ⟨hblank.orderly, hblank.closing, hblank.established⟩

variable {h : Accepts isn synAck} {hlen : stream.length + 1 < 2 ^ 31} {endpoint : TcpEndpoint}

/-- What was read is a beginning of the stream. -/
theorem Receives.delivered (hinv : Receives h hlen endpoint) :
    endpoint.world.history.delivered <+: stream :=
  (List.prefix_append ..).trans hinv.orderly.inOrder.bytes

/-- When the peer has closed and nothing is left to be read, it is the whole stream. -/
theorem Receives.whole (hinv : Receives h hlen endpoint)
    (hclosed : endpoint.world.connection.state = .closeWait)
    (hdrained : endpoint.world.connection.receiveReady = []) :
    endpoint.world.history.delivered = stream := by
  have hmeans := hinv.closing.means hinv.established
  rw [hclosed] at hmeans
  have hfins : 0 < endpoint.world.history.peerFins := of_decide_eq_true hmeans.1
  have hbytes := hinv.orderly.inOrder.bytes
  rcases hinv.orderly.inOrder.fins_le with hnone | ⟨-, hlength⟩
  · omega
  · rw [hdrained, List.append_nil] at hbytes hlength
    exact hbytes.eq_of_length hlength

end Receive

/-- **What `run_http` reports** when it succeeds, on whatever network the peer's segments come
through: a report on a beginning of the peer's stream, and when no error was printed on the whole
of it. -/
theorem runHttp_reports {dev : Netdev} {targetIp : Ipv4Address} {nextHopMac : MacAddress}
    {memory : HttpMemory} (hopen : 0 ≤ dev.fd) (hmemory : memory.IsSound)
    {hostName pathName hostArg pathArg : List UInt8} (hhost : cString hostArg 0 = .ok hostName)
    (hpath : cString pathArg 0 = .ok pathName) {initialSequence : BitVec 32}
    {stream : List UInt8} (hlen : stream.length + 1 < 2 ^ 31) {host : Host}
    (hsaid : ∀ segment ∈ segmentsIn dev targetIp host.receptions,
      segment.IsSaid initialSequence stream)
    (hzero : (runHttp dev targetIp nextHopMac memory hostArg pathArg host).1 = .ok 0) :
    ∃ data report, data <+: stream ∧ IsReport memory data report ∧ report.returned = 0 ∧
      ∃ trace closing,
        (runHttp dev targetIp nextHopMac memory hostArg pathArg host).2.stdout =
          host.stdout ++ trace ++ report.stdout ++ closing ∧
        ((runHttp dev targetIp nextHopMac memory hostArg pathArg host).2.stderr = host.stderr →
          data = stream) := by
  have hspec := @runHttp_spec dev targetIp nextHopMac memory hopen hmemory _ _ _ _ hhost hpath host
  unfold wp at hspec
  rcases hout : runHttp dev targetIp nextHopMac memory hostArg pathArg host with ⟨e | result, after⟩
  · rw [hout] at hzero
    cases hzero
  rw [hout] at hspec hzero
  obtain rfl : result = 0 := Except.ok.inj hzero
  obtain ⟨synAck, h, n, earlier, ops, exchange, before, report, hreported⟩ := hspec.2 rfl
  have hx := hreported.exchanging
  -- the segments that were taken are among those that came
  have htaken : ∀ segment ∈ earlier ++ [synAck] ++ TcpOp.segments ops,
      segment.IsSaid initialSequence stream := by
    intro segment hsegment
    refine hsaid segment ?_
    rw [hx.traffic.received_eq]
    exact List.mem_append_left _ hsegment
  have hsequence := ((htaken synAck (by simp)).sequence h.hasFlag_syn).1
  have hinv : Receives h hlen (endpointAfter h ops) :=
    receives_run h hlen hsequence hx.calls fun segment hsegment =>
      htaken segment (List.mem_append_right _ hsegment)
  obtain ⟨trace, htrace⟩ := hx.traffic.stdout
  obtain ⟨closing, hclosing⟩ := hreported.stdout
  refine ⟨_, report, hinv.delivered, hreported.isReport, hreported.returned, trace, closing, ?_,
    fun hquiet => ?_⟩
  · rw [htrace]
    exact hclosing.symm
  · have hsilent : before.stderr = host.stderr := by
      have hlater := (List.prefix_append ..).trans hreported.stderr
      rw [show after.stderr = host.stderr from hquiet] at hlater
      exact hlater.eq_of_length_le hx.traffic.stderr.length_le
    refine hinv.whole ?_ ?_
    · rw [hx.connection]
      exact hreported.closed hsilent
    · rw [hx.connection]
      exact hreported.drained

/-- `HTTP/1.1 200 OK` and two bytes. -/
def testResponse : List UInt8 :=
  [72, 84, 84, 80, 47, 49, 46, 49, 32, 50, 48, 48, 32, 79, 75, 13, 10, 13, 10, 104, 105]

/-- A frame of the peer. -/
def testFrame (sequenceNumber : BitVec 32) (flags : BitVec 8) (payload : List UInt8) : List UInt8 :=
  ((tcpBuild httpDestinationPort httpSourcePort sequenceNumber (mixIsn ⟨1, 0⟩ + 1) flags 4096
    payload).bind (tcpFrame testPeer testDevice.ipv4 testDevice.mac 0)).getD []

/-- The peer answers the SYN, and then says the response and its FIN. -/
def answeringHost : Host where
  clock := testClock 12
  receptions := [.frame (testFrame 1000 (tcpFlagSyn ||| tcpFlagAck) []),
    .frame (testFrame 1001 (tcpFlagFin ||| tcpFlagAck) testResponse)]
  sends := List.replicate 8 none
  frames := []
  stdout := []
  stderr := []

/-- What the test host answers is what a peer with this stream says: a SYN-ACK, and segments with
parts of the stream. -/
theorem answeringHost_said : ∀ segment ∈ segmentsIn testDevice testPeer.ipv4 answeringHost.receptions,
    segment.IsSaid 1000 testResponse := by
  have hsegments : (segmentsIn testDevice testPeer.ipv4 answeringHost.receptions).map
      (fun segment => (segment.sequenceNumber, segment.flags, segment.payload)) =
        [(1000, tcpFlagSyn ||| tcpFlagAck, []), (1001, tcpFlagFin ||| tcpFlagAck, testResponse)] := by
    decide +kernel
  intro segment hsegment
  have hfields := hsegments ▸ List.mem_map_of_mem hsegment
  rw [List.mem_cons, List.mem_singleton, Prod.mk.injEq, Prod.mk.injEq, Prod.mk.injEq,
    Prod.mk.injEq] at hfields
  rcases hfields with ⟨hsequence, hflags, hpayload⟩ | ⟨hsequence, hflags, hpayload⟩
  · refine .syn ?_ ?_ ?_ hpayload hsequence <;> rw [TcpSegment.hasFlag, hflags] <;> decide
  · refine .part ⟨?_, ?_, 0, hsequence, ?_, fun _ => ?_⟩
    · rw [TcpSegment.hasFlag, hflags]
      decide
    · rw [TcpSegment.hasFlag, hflags]
      decide
    · rw [hpayload]
      exact List.prefix_rfl
    · rw [hpayload]
      exact ⟨rfl, Nat.zero_add _⟩

theorem runHttp_reports_answered :
    ∃ data report, data <+: testResponse ∧ IsReport zeroMemory data report ∧ report.returned = 0 ∧
      ∃ trace closing,
        (runHttp testDevice testPeer.ipv4 testPeer.mac zeroMemory [97, 0] [47, 0]
            answeringHost).2.stdout =
          answeringHost.stdout ++ trace ++ report.stdout ++ closing ∧
        ((runHttp testDevice testPeer.ipv4 testPeer.mac zeroMemory [97, 0] [47, 0]
            answeringHost).2.stderr = answeringHost.stderr → data = testResponse) := by
  have hhost : cString [97, 0] 0 = .ok [97] := by decide
  have hpath : cString [47, 0] 0 = .ok [47] := by decide
  exact runHttp_reports (by decide) zeroMemory_isSound hhost hpath (by decide) answeringHost_said
    (by decide +kernel)

end HttpTool
end Netstack
