/-
# Stop-and-wait recovers

`build_data` and `build_fin` do not look at what is outstanding; it is the user who has to
wait for the acknowledgment of one segment before building the next, and to write no more
than the peer's ready buffer takes (`TcpLink.StopAndWait`).  For a user who does,
`stopAndWait_recovers` says two things about every reachable state of a link.  When nothing
is outstanding the peer has everything that was written.  And as long as the timer has a
retransmission left, one more round gets there: the timer expires, the peer reads, takes the
retransmitted segment and acknowledges, and the acknowledgment arrives.

The reason is that nothing ever reaches the peer beyond a gap (`TcpLink.Gapless`).  Its slots
stay empty and no FIN is pending, so that a segment is refused only for lack of room.
-/

import Netstack.TcpConnection.Acknowledged

namespace Netstack

open SerialNumber (dist)
open Transition (run Along)

/-- The near side builds only with everything acknowledged, and at most what fits in the ready
buffer of the far side. -/
def TcpLink.StopAndWait (link : TcpLink) : TcpLinkOp → Prop
  | .near op => link.near.world.SendsWhenAcknowledged op ∧
      ∀ payload window, op = .buildData payload window →
        payload.length ≤ tcpReceiveReadyCapacity
  | .far _ => True

/-- A call of a link whose near side waits. -/
def TcpLink.AllowsWaiting (link : TcpLink) (op : TcpLinkOp) : Prop :=
  link.Allows op ∧ link.StopAndWait op

/-- The timer expires, and the far side reads and takes the segment. -/
def TcpLink.resend (link : TcpLink) : List TcpLinkOp :=
  [.near (.tick link.near.world.connection.retransmitTimeoutMs),
    .far (.read link.far.world.connection.receiveReady.length),
    .far (.onSegment link.near.world.connection.lastSegment)]

/-- The acknowledgment that the far side builds then. -/
def TcpLink.acknowledgment (link : TcpLink) (window : BitVec 16) : TcpSegment :=
  (tcpConnectionBuildAck (run TcpLink.step link link.resend).far.world.connection window).getD
    TcpSegment.zero

/-- One round without a loss. -/
def TcpLink.round (link : TcpLink) (window : BitVec 16) : List TcpLinkOp :=
  link.resend ++ [.far (.buildAck window), .near (.onSegment (link.acknowledgment window))]

/-! ### Without gaps -/

/-- Nothing waits for something that is missing. -/
structure TcpConnection.NoGap (connection : TcpConnection) : Prop where
  free : ∀ i, (connection.reassembly i).used = false
  noFin : connection.pendingFin = false

/-- Whether there is a gap is decided by the receive side. -/
theorem TcpConnection.NoGap.congr {connection next : TcpConnection} (h : connection.NoGap)
    (hside : next.receiveSide = connection.receiveSide) : next.NoGap := by
  refine ⟨fun i => ?_, ?_⟩
  · rw [show next.reassembly = connection.reassembly from
      congrArg TcpReceiveSide.reassembly hside]
    exact h.free i
  · exact (congrArg TcpReceiveSide.pendingFin hside).trans h.noFin

/-- The segment carries nothing beyond the first `n` sequence numbers: no byte behind a gap and
no FIN behind one. -/
structure TcpSegment.Follows (segment : TcpSegment) (base : BitVec 32) (n : ℕ) : Prop where
  begins : segment.payload ≠ [] ∨ segment.hasFlag tcpFlagFin = true →
    ∃ offset ≤ n, segment.sequenceNumber = base + BitVec.ofNat 32 offset
  alone : segment.hasFlag tcpFlagFin = true → segment.payload = []

/-- A segment that follows what was there follows what is there later. -/
theorem TcpSegment.Follows.mono {segment : TcpSegment} {base : BitVec 32} {m n : ℕ}
    (h : segment.Follows base m) (hmn : m ≤ n) : segment.Follows base n := by
  refine ⟨fun hsome => ?_, h.alone⟩
  obtain ⟨offset, hle, hseq⟩ := h.begins hsome
  exact ⟨offset, hle.trans hmn, hseq⟩

section NoGap

variable {session : PeerSession} {delivered : List UInt8} {fins m : ℕ} {segment : TcpSegment}

/-- A segment that follows what was received does not begin behind `receive_next`. -/
theorem TcpSegment.Follows.not_ahead {connection : TcpConnection}
    (h : segment.Follows (session.sequenceAt 0) m)
    (horder : session.InOrder delivered fins connection)
    (hm : m ≤ (delivered ++ connection.receiveReady).length + fins)
    (hsome : segment.payload ≠ [] ∨ segment.hasFlag tcpFlagFin = true) :
    seqGt segment.sequenceNumber connection.receiveNext = false := by
  obtain ⟨offset, hle, hseq⟩ := h.begins hsome
  have hnext := horder.add_fins_le
  have hlen := session.stream_lt
  rw [← Bool.not_eq_true, seqGt_iff, hseq, horder.next, ← session.sequenceAt_add, Nat.zero_add,
    PeerSession.sequenceAt, PeerSession.sequenceAt,
    SerialNumber.dist_offset (by omega) (by omega)]
  omega

/-- **A receive path without gaps opens none.** -/
theorem ReceivePath.noGap {start last : TcpConnection} {n : ℕ}
    (hpath : ReceivePath segment start n last) (hseg : session.Honest segment)
    (hfollows : segment.Follows (session.sequenceAt 0) m)
    (horder : session.InOrder delivered fins start)
    (hm : m ≤ (delivered ++ start.receiveReady).length + fins) (hgap : start.NoGap) :
    session.InOrder delivered (fins + n) last ∧
      m ≤ (delivered ++ last.receiveReady).length + (fins + n) ∧ last.NoGap := by
  refine hpath.invariant (P := fun n c => session.InOrder delivered (fins + n) c ∧
      m ≤ (delivered ++ c.receiveReady).length + (fins + n) ∧ c.NoGap)
    (fun n connection next hP hstep => ?_) (fun n connection next hP hstep => ?_)
    ⟨horder, hm, hgap⟩
  · obtain ⟨hin, hle, hnone⟩ := hP
    refine ⟨hin.step hseg hstep, ?_⟩
    cases hstep with
    | accept =>
        refine ⟨?_, hnone.free, hnone.noFin⟩
        rw [TcpConnection.deliver_receiveReady, ← List.append_assoc, List.length_append]
        omega
    | buffer future =>
        have := hfollows.not_ahead hin hle (Or.inl future.1)
        exact absurd (this.symm.trans future.2.2) Bool.false_ne_true
    | promote step =>
        cases step with
        | discard used => exact absurd ((hnone.free _).symm.trans used) Bool.false_ne_true
        | deliver holds => exact absurd ((hnone.free _).symm.trans holds.1) Bool.false_ne_true
    | remember fin ahead =>
        rw [TcpSegment.payloadEnd, hfollows.alone fin, List.length_nil, BitVec.add_zero] at ahead
        have := hfollows.not_ahead hin hle (Or.inr fin)
        exact absurd (this.symm.trans ahead) Bool.false_ne_true
  · obtain ⟨hin, hle, hnone⟩ := hP
    refine ⟨hin.fin hseg hstep, ?_⟩
    cases hstep with
    | pending due =>
        rw [TcpConnection.pendingFinDue, hnone.noFin] at due
        exact absurd due Bool.false_ne_true
    | direct due =>
        refine ⟨?_, hnone.free, hnone.noFin⟩
        show m ≤ (delivered ++ connection.receiveReady).length + (fins + (n + 1))
        omega

/-- An incoming segment opens no gap. -/
theorem OnSegment.noGap {connection last : TcpConnection} {result : ℤ} {n : ℕ}
    (h : OnSegment segment connection result n last) (hseg : session.Honest segment)
    (hfollows : segment.Follows (session.sequenceAt 0) m)
    (horder : session.InOrder delivered fins connection)
    (hm : m ≤ (delivered ++ connection.receiveReady).length + fins) (hgap : connection.NoGap) :
    last.NoGap := by
  have hside := connection.afterAck_receiveSide segment
  have hack : session.InOrder delivered fins (connection.afterAck segment) :=
    horder.congr (by rw [TcpConnection.afterAck_receiveReady]) hside
  have hmack : m ≤ (delivered ++ (connection.afterAck segment).receiveReady).length + fins := by
    rwa [TcpConnection.afterAck_receiveReady]
  cases h with
  | misaddressed => exact hgap
  | aborted _ rst => exact absurd (hseg.noRst.symm.trans rst) Bool.false_ne_true
  | unanswered | mismatched | ignored => exact hgap.congr hside
  | opened =>
      exact ⟨fun i => (hgap.congr hside).free i, (hgap.congr hside).noFin⟩
  | refused _ _ _ payload =>
      exact (payload.path.noGap hseg hfollows hack hmack (hgap.congr hside)).2.2
  | received _ _ _ payload =>
      have hpath := payload.received_path.noGap hseg hfollows hack hmack (hgap.congr hside)
      exact hpath.2.2.congr (finishClose_receiveSide _)

/-- What follows is refused only for lack of room. -/
theorem TcpSegment.Follows.not_refuses {connection : TcpConnection}
    (hfollows : segment.Follows (session.sequenceAt 0) m)
    (horder : session.InOrder delivered fins connection)
    (hm : m ≤ (delivered ++ connection.receiveReady).length + fins) (hgap : connection.NoGap)
    (hempty : connection.receiveReady = [])
    (hfits : segment.payload.length ≤ tcpReceiveReadyCapacity) : ¬connection.Refuses segment := by
  rintro (⟨hfuture, -⟩ | ⟨hholds, y, hreach, hover⟩)
  · have := hfollows.not_ahead horder hm (Or.inl hfuture.1)
    exact absurd (this.symm.trans hfuture.2.2) Bool.false_ne_true
  · obtain rfl := hreach.eq_of_not_holds fun i hi =>
      absurd ((hgap.free i).symm.trans hi.1) Bool.false_ne_true
    have hadd := length_bytesFrom hholds
    have hlen := segment.payload_length_lt
    rw [← TcpSegment.bytesFrom] at hadd
    have hdist : (segment.payloadEnd - connection.receiveNext).toNat =
        (segment.bytesFrom connection.receiveNext).length := by
      rw [TcpSegment.payloadEnd_eq hholds]
      bv_omega
    rw [hdist, hempty, List.length_nil] at hover
    omega

/-- **What follows is taken.**  A segment that follows what was received and fits in the empty
ready buffer leaves nothing of itself missing. -/
theorem OnSegment.takes {connection last : TcpConnection} {result : ℤ} {n : ℕ}
    (h : OnSegment segment connection result n last) (hseg : session.Honest segment)
    (hb : connection.SlotsBounded) (hports : connection.addressedBy segment = true)
    (hreceives : connection.state.receives = true)
    (hfollows : segment.Follows (session.sequenceAt 0) m)
    (horder : session.InOrder delivered fins connection)
    (hm : m ≤ (delivered ++ connection.receiveReady).length + fins) (hgap : connection.NoGap)
    (hempty : connection.receiveReady = [])
    (hfits : segment.payload.length ≤ tcpReceiveReadyCapacity) :
    (∀ i < session.stream.length, segment.Holds (session.sequenceAt i) →
        i < (delivered ++ last.receiveReady).length) ∧
      (segment.hasFlag tcpFlagFin = true → fins + n = 1) := by
  have hside := connection.afterAck_receiveSide segment
  have hack : session.InOrder delivered fins (connection.afterAck segment) :=
    horder.congr (by rw [TcpConnection.afterAck_receiveReady]) hside
  have hmack : m ≤ (delivered ++ (connection.afterAck segment).receiveReady).length + fins := by
    rwa [TcpConnection.afterAck_receiveReady]
  have hlast := h.noGap hseg hfollows horder hm hgap
  cases h with
  | misaddressed ports => exact absurd (ports.symm.trans hports) Bool.false_ne_true
  | aborted _ rst => exact absurd (hseg.noRst.symm.trans rst) Bool.false_ne_true
  | unanswered _ _ state | mismatched _ _ state | opened _ _ state =>
      rw [state] at hreceives
      exact absurd hreceives Bool.false_ne_true
  | ignored _ _ _ receives => exact absurd (receives.symm.trans hreceives) Bool.false_ne_true
  | refused _ _ _ payload =>
      have hrefuses := (payload.refused_iff (hb.afterAck segment)).1 rfl
      rw [TcpConnection.refuses_afterAck] at hrefuses
      exact absurd hrefuses (hfollows.not_refuses horder hm hgap hempty hfits)
  | @received k mid _ _ _ payload =>
      refine ⟨fun i hi hholds => ?_, fun hfin => ?_⟩
      · have hhas := (hack.payload_has (hb.afterAck segment) hseg payload hi).2 (Or.inr hholds)
        have hmid := payload.path.noGap hseg hfollows hack hmack (hgap.congr hside)
        rw [finishClose_receiveReady, consumePendingFin_receiveReady, processFin_receiveReady]
        rcases hhas with hlt | ⟨j, hj⟩
        · exact hlt
        · exact absurd ((hmid.2.2.free j).symm.trans hj.1) Bool.false_ne_true
      · have hknows := (horder.received_knowsFin hseg payload).2 (Or.inr hfin)
        rcases hknows with hpending | hone
        · exact absurd (hlast.noFin.symm.trans hpending) Bool.false_ne_true
        · exact hone

end NoGap

/-! ### What a waiting side sends -/

/-- The connection keeps its ports. -/
theorem OnSegment.ports {segment : TcpSegment} {connection last : TcpConnection} {result : ℤ}
    {n : ℕ} (h : OnSegment segment connection result n last) :
    last.localPort = connection.localPort ∧ last.remotePort = connection.remotePort := by
  have hack := connection.afterAck_ports segment
  have hside : ∀ c : TcpConnection, c.sendSide = (connection.afterAck segment).sendSide →
      c.localPort = connection.localPort ∧ c.remotePort = connection.remotePort := fun c hc =>
    ⟨(congrArg TcpSendSide.localPort hc).trans hack.1,
      (congrArg TcpSendSide.remotePort hc).trans hack.2⟩
  cases h with
  | misaddressed | aborted => exact ⟨rfl, rfl⟩
  | unanswered | mismatched | ignored | opened => exact hack
  | refused _ _ _ payload => exact hside _ payload.path.sendSide
  | received _ _ _ payload =>
      have hpath := hside _ payload.received_path.sendSide
      unfold finishClose
      split_ifs <;> exact hpath

/-- No call changes the ports. -/
theorem TcpOp.ports (op : TcpOp) {connection : TcpConnection} (hb : connection.SlotsBounded) :
    (op.effect connection).localPort = connection.localPort ∧
      (op.effect connection).remotePort = connection.remotePort := by
  cases op with
  | buildSyn window =>
      rcases buildSyn_cases connection window with ⟨-, heq⟩ | ⟨-, segment, -, heq⟩ <;>
        rw [TcpOp.effect, heq] <;> exact ⟨rfl, rfl⟩
  | onSegment segment => exact (onSegment_spec segment hb).ports
  | buildAck => exact ⟨rfl, rfl⟩
  | buildData payload window =>
      rcases buildData_cases connection payload window with ⟨-, heq⟩ | ⟨-, -, segment, -, heq⟩ <;>
        rw [TcpOp.effect, heq] <;> exact ⟨rfl, rfl⟩
  | buildFin window =>
      rcases buildFin_cases connection window with ⟨-, -, heq⟩ | ⟨state, -, segment, -, heq⟩ <;>
        rw [TcpOp.effect, heq] <;> exact ⟨rfl, rfl⟩
  | tick elapsedMs =>
      rcases tick_connection connection elapsedMs with ⟨_, _, _, heq⟩ | ⟨_, heq⟩ <;>
        rw [TcpOp.effect, heq] <;> exact ⟨rfl, rfl⟩
  | read bufferLen =>
      rw [TcpOp.effect, read_eq]
      exact ⟨rfl, rfl⟩

/-- What is built was accepted by its builder. -/
theorem TcpOp.sends_of_built {op : TcpOp} {connection : TcpConnection} {segment : TcpSegment}
    (h : op.built connection = some segment) : op.sends connection := by
  cases op with
  | buildSyn window =>
      rcases buildSyn_cases connection window with ⟨-, heq⟩ | ⟨hstate, -⟩
      · rw [TcpOp.built, heq] at h
        cases h
      · exact hstate
  | onSegment | buildAck | tick | read => cases h
  | buildData payload window =>
      rcases buildData_cases connection payload window with
        ⟨-, heq⟩ | ⟨hstate, hne, built, hcarries, -⟩
      · rw [TcpOp.built, heq] at h
        cases h
      · have hle := built.payload_le
        rw [hcarries.payload_eq] at hle
        exact ⟨hstate, hne, hle⟩
  | buildFin window =>
      rcases buildFin_cases connection window with ⟨-, -, heq⟩ | ⟨state, hstate, -⟩
      · rw [TcpOp.built, heq] at h
        cases h
      · exact hstate.imp And.left And.left

/-- Where the segment goes, and that it fits in the ready buffer of the peer. -/
structure TcpSegment.Fits (segment : TcpSegment) (handshake : TcpHandshake) : Prop where
  sourcePort_eq : segment.sourcePort = handshake.localPort
  destinationPort_eq : segment.destinationPort = handshake.remotePort
  payload_le : segment.payload.length ≤ tcpReceiveReadyCapacity

/-- What carries the induction on the side that waits, when its peer has received `n`. -/
structure TcpEndpoint.Waits (endpoint : TcpEndpoint) (handshake : TcpHandshake) (n : ℕ) :
    Prop where
  inOrder : endpoint.world.SendsInOrder
  localPort : endpoint.world.connection.localPort = handshake.localPort
  remotePort : endpoint.world.connection.remotePort = handshake.remotePort
  emitted : ∀ segment ∈ endpoint.emitted, segment.Follows handshake.base n
  armed : endpoint.world.connection.hasRetransmitSegment = true →
    endpoint.world.connection.lastSegment.Follows handshake.base n ∧
      endpoint.world.connection.lastSegment.Fits handshake

section Waits

variable {endpoint peer : TcpEndpoint} {handshake : TcpHandshake}

theorem TcpEndpoint.Waits.mono {m n : ℕ} (h : endpoint.Waits handshake m) (hmn : m ≤ n) :
    endpoint.Waits handshake n :=
  ⟨h.inOrder, h.localPort, h.remotePort, fun segment hmem => (h.emitted segment hmem).mono hmn,
    fun hhas => ⟨(h.armed hhas).1.mono hmn, (h.armed hhas).2⟩⟩

/-- **When nothing is outstanding**, the peer has everything. -/
theorem TcpEndpoint.Waits.settled {n : ℕ} (h : endpoint.Waits handshake n)
    (hcovered : endpoint.Covered peer handshake.base)
    (hall : endpoint.world.connection.sendUnacknowledged = endpoint.world.connection.sendNext) :
    endpoint.written.length + endpoint.closed.toNat ≤ peer.received := by
  by_contra hlt
  refine Nat.lt_irrefl peer.received (hcovered.numbers _ (Nat.not_le.1 hlt) fun hmem => ?_)
  rw [h.inOrder.outstanding, hall, SerialNumber.toNat_sub_eq_zero.2 rfl] at hmem
  exact SerialNumber.not_inRange_zero _ _ hmem

/-- A segment without bytes and without a FIN follows whatever is there, and another one follows
when its sequence number is not behind the end of what is there. -/
theorem TcpSegment.Carries.follows {segment : TcpSegment} {base seq : BitVec 32}
    {flags : BitVec 8} {payload : List UInt8} (h : segment.Carries seq flags payload) {n : ℕ}
    (hseq : payload = [] ∧ flags &&& tcpFlagFin = 0 ∨
      ∃ offset ≤ n, seq = base + BitVec.ofNat 32 offset)
    (halone : payload = [] ∨ flags &&& tcpFlagFin = 0) : segment.Follows base n := by
  have hflag : flags &&& tcpFlagFin = 0 → segment.hasFlag tcpFlagFin = false := by
    intro hzero
    rw [TcpSegment.hasFlag, h.flags_eq, hzero]
    rfl
  refine ⟨fun hsome => ?_, fun hfin => ?_⟩
  · rcases hseq with ⟨hnil, hzero⟩ | ⟨offset, hle, heq⟩
    · rw [h.payload_eq, hflag hzero] at hsome
      exact absurd hsome (by simp [hnil])
    · exact ⟨offset, hle, h.sequenceNumber_eq.trans heq⟩
  · rw [h.payload_eq]
    exact halone.resolve_right fun hzero =>
      absurd ((hflag hzero).symm.trans hfin) Bool.false_ne_true

/-- **One call of the side that waits.** -/
theorem TcpEndpoint.Waits.step (h : endpoint.Waits handshake peer.received)
    (hsends : endpoint.SendsParts handshake.base) (hcovered : endpoint.Covered peer handshake.base)
    {op : TcpOp} (hsyn : ∀ window, op ≠ .buildSyn window)
    (hwaits : endpoint.world.SendsWhenAcknowledged op)
    (hfits : ∀ payload window, op = .buildData payload window →
      payload.length ≤ tcpReceiveReadyCapacity) :
    (endpoint.step op).Waits handshake peer.received := by
  have hports := op.ports h.inOrder.bounded
  have hnext := hsends.next
  -- what is built begins where everything before it has arrived
  have hbuilt : ∀ {segment flags payload}, op.built endpoint.world.connection = some segment →
      segment.Carries endpoint.world.connection.sendNext flags payload →
      payload = [] ∨ flags &&& tcpFlagFin = 0 →
      segment.Follows handshake.base peer.received ∧ segment.Fits handshake := by
    intro segment flags payload hsome hcarries halone
    have hall := h.settled hcovered (hwaits (TcpOp.sends_of_built hsome))
    obtain ⟨hfrom, hpayload⟩ := TcpOp.built_isFrom hsome hsyn
    refine ⟨hcarries.follows (Or.inr ⟨_, hall, hnext⟩) halone, hfrom.sourcePort_eq.trans h.localPort,
      hfrom.destinationPort_eq.trans h.remotePort, ?_⟩
    rcases hpayload with hnil | ⟨window, heq⟩
    · rw [hnil]
      exact Nat.zero_le _
    · exact hfits _ window heq
  have hemitted : ∀ part : TcpSegment, op.emits endpoint.world.connection = some part →
      part.Follows handshake.base peer.received →
      ∀ segment ∈ (endpoint.step op).emitted, segment.Follows handshake.base peer.received := by
    intro part hsome hpart segment hmem
    rw [TcpEndpoint.step_emitted, hsome, List.mem_append] at hmem
    rcases hmem with hold | hnew
    · exact h.emitted segment hold
    · obtain rfl := List.mem_singleton.1 hnew
      exact hpart
  refine ⟨h.inOrder.step hwaits, hports.1.trans h.localPort, hports.2.trans h.remotePort, ?_, ?_⟩
  · cases op.emission hsends.closing hsyn with
    | again _ _ _ _ _ emits =>
        intro segment hmem
        rw [TcpEndpoint.step_emitted, List.mem_append] at hmem
        rcases hmem with hold | hnew
        · exact h.emitted segment hold
        · rcases emits segment (Option.mem_toList.1 hnew) with hack | ⟨hhas, rfl⟩
          · exact hack.follows (Or.inl ⟨rfl, by decide⟩) (Or.inl rfl)
          · exact (h.armed hhas).1
    | data _ _ carries _ emits built =>
        exact hemitted _ emits (hbuilt built carries (Or.inr (by decide))).1
    | fin _ _ carries _ emits built =>
        exact hemitted _ emits (hbuilt built carries (Or.inl rfl)).1
  · intro hhas
    show (op.effect endpoint.world.connection).lastSegment.Follows _ _ ∧
      (op.effect endpoint.world.connection).lastSegment.Fits _
    cases op.emission hsends.closing hsyn with
    | again _ _ _ last armed =>
        rw [last]
        exact h.armed (armed hhas)
    | data _ _ carries effect _ built =>
        rw [effect]
        exact hbuilt built carries (Or.inr (by decide))
    | fin _ _ carries effect _ built =>
        rw [effect]
        exact hbuilt built carries (Or.inl rfl)

end Waits

/-! ### Links whose near side waits -/

/-- What an endpoint has received after a segment: the bytes in order and the FINs, from the two
functions that say what the call leaves. -/
theorem TcpEndpoint.received_onSegment (endpoint : TcpEndpoint) (segment : TcpSegment) :
    (endpoint.step (.onSegment segment)).received =
      (endpoint.world.history.delivered ++
          (tcpConnectionOnSegment endpoint.world.connection segment).2.receiveReady).length +
        (endpoint.world.history.peerFins + onSegmentFins endpoint.world.connection segment) := by
  rw [TcpEndpoint.received, TcpWorld.inOrder, TcpEndpoint.step_world, TcpWorld.step_history,
    TcpHistory.record_onSegment, TcpHistory.received_delivered, TcpHistory.received_peerFins]
  rfl

/-- What carries the induction over a run: beside what holds of every link, nothing reaches the
far side beyond a gap. -/
structure TcpLink.Gapless (near far : TcpHandshake) (stream : List UInt8)
    (hlen : stream.length + 1 < 2 ^ 31) (link : TcpLink) : Prop where
  tracks : link.Tracks near far stream hlen
  waits : link.near.Waits near link.far.received
  farPorts : link.far.world.connection.localPort = far.localPort ∧
    link.far.world.connection.remotePort = far.remotePort
  noGap : link.far.world.connection.NoGap

section Gapless

variable {near far : TcpHandshake} {link : TcpLink} {stream : List UInt8}
  {hlen : stream.length + 1 < 2 ^ 31}

theorem TcpHandshake.Mirrors.base_eq (h : near.Mirrors far) :
    near.base = (far.session stream hlen).sequenceAt 0 :=
  ((h.sequenceAt 0).trans (BitVec.add_zero _)).symm

/-- The step lemma of stop-and-wait: the next segment is built only when everything before it was
acknowledged, so that none can arrive ahead of a gap, and the slots of the far side stay empty.
-/
theorem TcpLink.Gapless.step (h : link.Gapless near far stream hlen) (hmirror : near.Mirrors far)
    (hsends : link.Sends near far) {op : TcpLinkOp} (hop : link.AllowsWaiting op)
    (hw : link.near.written <+: stream)
    (hc : link.near.closed = true → stream = link.near.written) :
    (link.step op).Gapless near far stream hlen := by
  have htracks := h.tracks.step hmirror hsends hop.1 hw hc
  cases op with
  | near op =>
      have hsyn := TcpOp.Delivers.ne_buildSyn hop.1
      exact ⟨htracks, h.waits.step hsends.near h.tracks.covered hsyn hop.2.1 hop.2.2, h.farPorts,
        h.noGap⟩
  | far op =>
      have hsyn := TcpOp.Delivers.ne_buildSyn hop.1
      have hb := h.tracks.receives.orderly.bounded
      have hgrows : link.far.received ≤ (link.far.step op).received := by
        refine TcpEndpoint.received_le_step hb hsyn fun segment heq => ?_
        subst heq
        exact (hsends.near.emitted segment hop.1).noRst
      have hports := op.ports hb
      refine ⟨htracks, h.waits.mono hgrows, ⟨hports.1.trans h.farPorts.1,
        hports.2.trans h.farPorts.2⟩, ?_⟩
      by_cases hseg : ∃ segment, op = .onSegment segment
      · obtain ⟨segment, rfl⟩ := hseg
        have hpart := (hsends.near.emitted segment hop.1).mono hw fun hclosed =>
          ⟨hclosed, hc hclosed⟩
        exact (onSegment_spec segment hb).noGap (hpart.honest (congrArg (· + 1) hmirror.peerSequence) hlen)
          (hmirror.base_eq ▸ h.waits.emitted segment hop.1) h.tracks.receives.orderly.inOrder le_rfl
          h.noGap
      · exact h.noGap.congr (TcpOp.receiveSide _ fun segment heq => hseg ⟨segment, heq⟩)

/-- There is no gap before the first segment. -/
theorem TcpLink.start_gapless (near far : TcpHandshake) :
    (TcpLink.start near far).Gapless near far stream hlen := by
  have hnear := near.start_opened
  have hfar := far.start_opened
  have hblank := (far.session stream hlen).start_blank
  refine ⟨TcpLink.start_tracks near far, ⟨⟨hnear.closing.bounded, hnear.closing.sendInv, ?_⟩,
    hnear.localPort, hnear.remotePort, fun _ hmem => absurd hmem List.not_mem_nil, fun hhas => ?_⟩,
    ⟨hfar.localPort, hfar.remotePort⟩, hblank.free, hblank.noFin⟩
  · intro x
    show x ∈ near.start.world.history.unacked ↔ _
    rw [hnear.unacked, TcpLink.start, hnear.unacknowledged, hnear.next,
      SerialNumber.toNat_sub_eq_zero.2 rfl]
    exact iff_of_false List.not_mem_nil (SerialNumber.not_inRange_zero _ _)
  · exact absurd (hnear.unarmed.symm.trans hhas) Bool.false_ne_true

/-- The remembered segment of the near side, as the far side sees it. -/
theorem TcpLink.Gapless.lastSegment (h : link.Gapless near far stream hlen)
    (hmirror : near.Mirrors far) (hsends : link.Sends near far) (hw : link.near.written = stream)
    (harmed : link.near.world.connection.hasRetransmitSegment = true) :
    (far.session stream hlen).Honest link.near.world.connection.lastSegment ∧
      link.near.world.connection.lastSegment.Follows ((far.session stream hlen).sequenceAt 0)
        link.far.received := by
  subst hw
  exact ⟨(hsends.near.armed harmed).honest (congrArg (· + 1) hmirror.peerSequence) hlen,
    hmirror.base_eq ▸ (h.waits.armed harmed).1⟩

/-- **What is missing is in the remembered segment**: once the far side has taken it, nothing
is. -/
theorem TcpLink.Gapless.missing (h : link.Gapless near far stream hlen)
    (hsends : link.Sends near far) (hw : link.near.written = stream)
    (hreset : link.near.world.connection.state ≠ .reset) {i : ℕ}
    (hi : i < link.near.written.length + link.near.closed.toNat) (hmiss : link.far.received ≤ i) :
    i < stream.length ∧
        link.near.world.connection.lastSegment.Holds (near.base + BitVec.ofNat 32 i) ∨
      i = stream.length ∧
        link.near.world.connection.lastSegment.hasFlag tcpFlagFin = true := by
  have hmem : near.base + BitVec.ofNat 32 i ∈ link.near.world.history.unacked := by
    by_contra hnot
    exact absurd (h.tracks.covered.numbers i hi hnot) (Nat.not_lt.2 hmiss)
  have hbool := link.near.closed.toNat_le
  have hwritten : link.near.written.length = stream.length := congrArg List.length hw
  obtain ⟨-, harmed, hin⟩ :=
    h.waits.inOrder.outstanding.retained h.waits.inOrder.sendInv hreset _ hmem
  have hpart := hsends.near.armed harmed
  obtain ⟨offset, hseq, hslice, hend⟩ := hpart.slice
  have hsyn := hpart.noSyn
  cases hfin : link.near.world.connection.lastSegment.hasFlag tcpFlagFin with
  | true =>
      have hnil := (h.waits.armed harmed).1.alone hfin
      have hoffset := (hend hfin).2
      rw [TcpSegment.sequenceLength, hnil, hsyn, hfin, hseq] at hin
      rw [hnil, List.length_nil, Nat.add_zero] at hoffset
      have hone := (@SerialNumber.inRange_offset_iff 32 near.base offset 1 i (by omega)
        (by omega)).1 hin
      exact Or.inr ⟨by omega, rfl⟩
  | false =>
      have hlength : link.near.world.connection.lastSegment.sequenceLength =
          link.near.world.connection.lastSegment.payload.length := by
        rw [TcpSegment.sequenceLength, hsyn, hfin]
        rfl
      rw [hlength] at hin
      refine Or.inl ⟨?_, hin⟩
      have hne := TcpSegment.Holds.payload_ne_nil hin
      have hbound := hslice.end_le hne
      rw [hseq] at hin
      have hrange := (SerialNumber.inRange_offset_iff (by omega) (by omega)).1 hin
      omega

/-- **The far side takes the remembered segment**, and nothing is missing. -/
theorem TcpLink.Gapless.resent (h : link.Gapless near far stream hlen) (hmirror : near.Mirrors far)
    (hsends : link.Sends near far) (hw : link.near.written = stream)
    (harmed : link.near.world.connection.hasRetransmitSegment = true)
    (hnear : link.near.world.connection.state ≠ .reset)
    (hfar : link.far.world.connection.state ≠ .reset)
    (hestablished : link.far.world.history.established = true)
    (hempty : link.far.world.connection.receiveReady = []) :
    link.near.written.length + link.near.closed.toNat ≤
      (link.far.step (.onSegment link.near.world.connection.lastSegment)).received := by
  have hwritten : link.near.written.length = stream.length := congrArg List.length hw
  obtain ⟨hhonest, hfollows⟩ := h.lastSegment hmirror hsends hw harmed
  have hfits := (h.waits.armed harmed).2
  have horderly := h.tracks.receives.orderly
  have hgrows : link.far.received ≤
      (link.far.step (.onSegment link.near.world.connection.lastSegment)).received := by
    refine TcpEndpoint.received_le_step horderly.bounded (fun _ => TcpOp.noConfusion) ?_
    rintro segment ⟨⟩
    exact hhonest.noRst
  by_cases hreceives : link.far.world.connection.state.receives = true
  · have hports : link.far.world.connection.addressedBy
        link.near.world.connection.lastSegment = true := by
      rw [TcpConnection.addressedBy, hfits.sourcePort_eq, hfits.destinationPort_eq, h.farPorts.1,
        h.farPorts.2, hmirror.ports, hmirror.peerPorts, BEq.rfl, BEq.rfl]
      rfl
    obtain ⟨hbytes, hfin⟩ := (onSegment_spec _ horderly.bounded).takes hhonest horderly.bounded
      hports hreceives hfollows horderly.inOrder le_rfl h.noGap hempty hfits.payload_le
    have hnext := horderly.inOrder.onSegment hhonest (onSegment_spec _ horderly.bounded)
    by_contra hlt
    rw [Nat.not_le] at hlt
    have hat : ∀ k, (far.session stream hlen).sequenceAt k = near.base + BitVec.ofNat 32 k :=
      hmirror.sequenceAt
    have hstream : (far.session stream hlen).stream.length = stream.length := rfl
    -- the first position that is missing would be in the segment
    have hmiss := h.missing hsends hw hnear hlt hgrows
    rw [← hat, TcpEndpoint.received_onSegment] at hmiss
    have hbool := link.near.closed.toNat_le
    rw [TcpEndpoint.received_onSegment] at hlt
    rcases hmiss with ⟨hi, hholds⟩ | ⟨heq, hflag⟩
    · have hin := hbytes _ hi hholds
      omega
    · have hone := hfin hflag
      rcases hnext.fins_le with hzero | ⟨-, hall⟩ <;> omega
  · -- the far side has consumed the FIN and takes nothing any more
    have hmeans := hsends.far.closing.means hestablished
    have hpeer : link.far.world.history.peer = true := by
      have hopening := hsends.far.closing.opening
      rw [hestablished] at hopening
      revert hmeans hreceives hfar hopening
      cases link.far.world.connection.state <;>
        simp_all [TcpConnectionState.receives, TcpHistory.Means]
    have hpos : 0 < link.far.world.history.peerFins := of_decide_eq_true hpeer
    have hbool := link.near.closed.toNat_le
    refine le_trans ?_ hgrows
    show _ ≤ link.far.world.inOrder.length + _
    rcases horderly.inOrder.fins_le with hzero | ⟨hone, hall⟩
    · omega
    · rw [TcpWorld.inOrder, hall, hone, hwritten]
      exact Nat.add_le_add_left hbool _

/-- **The acknowledgment of everything** leaves nothing outstanding. -/
theorem TcpEndpoint.Waits.acknowledged {endpoint : TcpEndpoint} {handshake : TcpHandshake} {n : ℕ}
    (h : endpoint.Waits handshake n) {segment : TcpSegment}
    (hports : endpoint.world.connection.addressedBy segment = true)
    (hrst : segment.hasFlag tcpFlagRst = false) (hack : segment.hasFlag tcpFlagAck = true)
    (hnumber : segment.acknowledgmentNumber = endpoint.world.connection.sendNext) :
    (endpoint.step (.onSegment segment)).world.connection.sendUnacknowledged =
      (endpoint.step (.onSegment segment)).world.connection.sendNext := by
  have hcall := onSegment_spec segment h.inOrder.bounded
  refine hcall.sendUnacknowledged.trans (Eq.trans ?_ hcall.sendNext.symm)
  rw [TcpConnection.acknowledgedBy_eq hports hrst, ← TcpConnection.afterAck_sendUnacknowledged]
  exact h.inOrder.sendInv.afterAck_sendNext hack hnumber

/-- The far side has everything. -/
def TcpLink.Settled (link : TcpLink) : Prop :=
  link.far.world.inOrder = link.near.written ∧
    link.far.world.history.peerFins = link.near.closed.toNat

/-- A count is enough: what is received is a beginning of what was written, so that as many bytes
are the same bytes. -/
theorem TcpEndpoint.ReceivesFrom.of_received {endpoint peer : TcpEndpoint}
    (h : endpoint.ReceivesFrom peer)
    (hall : peer.written.length + peer.closed.toNat ≤ endpoint.received) :
    endpoint.world.inOrder = peer.written ∧
      endpoint.world.history.peerFins = peer.closed.toNat := by
  have hle := h.bytes.length_le
  unfold TcpEndpoint.received at hall
  rcases h.fin with hzero | ⟨hone, hclosed, heq⟩
  · exact ⟨h.bytes.eq_of_length (by omega), by omega⟩
  · exact ⟨heq, by rw [hone, hclosed]; rfl⟩

end Gapless

/-! ### One round -/

/-- What holds throughout a round, in which the near side builds nothing. -/
structure TcpLink.Steady (near far : TcpHandshake) (stream : List UInt8)
    (hlen : stream.length + 1 < 2 ^ 31) (link : TcpLink) : Prop where
  gapless : link.Gapless near far stream hlen
  sends : link.Sends near far
  written : link.near.written = stream
  established : link.far.world.history.established = true

section Steady

variable {near far : TcpHandshake} {link : TcpLink} {stream : List UInt8}
  {hlen : stream.length + 1 < 2 ^ 31}

/-- The near side takes an incoming segment or its timer runs. -/
theorem TcpLink.Steady.step_near (h : link.Steady near far stream hlen)
    (hmirror : near.Mirrors far) (op : TcpOp) (hop : op.Delivers link.far.emitted)
    (hquiet : (∃ elapsedMs, op = .tick elapsedMs) ∨ ∃ segment, op = .onSegment segment) :
    link.AllowsWaiting (.near op) ∧ (link.step (.near op)).Steady near far stream hlen := by
  have hallows : link.AllowsWaiting (.near op) := by
    refine ⟨hop, ?_⟩
    rcases hquiet with ⟨elapsedMs, rfl⟩ | ⟨segment, rfl⟩ <;>
      exact ⟨fun hsends => absurd hsends id, fun _ _ => TcpOp.noConfusion⟩
  have hwritten : (link.near.step op).written = link.near.written := by
    rcases hquiet with ⟨elapsedMs, rfl⟩ | ⟨segment, rfl⟩ <;>
      exact TcpEndpoint.step_written_of_nil rfl
  refine ⟨hallows, h.gapless.step hmirror h.sends hallows ?_ ?_, (h.sends.step hallows.1).1,
    hwritten.trans h.written, h.established⟩
  · rw [h.written]
  · exact fun _ => h.written.symm

/-- A call of the far side. -/
theorem TcpLink.Steady.step_far (h : link.Steady near far stream hlen) (hmirror : near.Mirrors far)
    (op : TcpOp) (hop : op.Delivers link.near.emitted) :
    link.AllowsWaiting (.far op) ∧ (link.step (.far op)).Steady near far stream hlen := by
  have hallows : link.AllowsWaiting (.far op) := ⟨hop, trivial⟩
  refine ⟨hallows, h.gapless.step hmirror h.sends hallows ?_ ?_, (h.sends.step hallows.1).1,
    h.written, TcpEndpoint.established_step (TcpOp.Delivers.ne_buildSyn hop) h.established⟩
  · rw [h.written]
  · exact fun _ => h.written.symm

/-- The timer that runs for a whole timeout sends the remembered segment again. -/
theorem tick_resends {connection : TcpConnection}
    (harmed : connection.hasRetransmitSegment = true)
    (hcount : connection.retransmitCount < connection.retransmitLimit) :
    ∃ count timeout, tcpConnectionTick connection connection.retransmitTimeoutMs =
      ⟨1, connection.timed 0 count timeout, some connection.lastSegment⟩ := by
  rcases tick_cases connection connection.retransmitTimeoutMs with
    ⟨hoff, -⟩ | ⟨-, elapsed, heq, ⟨hwait, -⟩ | ⟨-, hlimit, -⟩ | ⟨-, -, hresend⟩⟩
  · exact absurd (hoff.symm.trans harmed) Bool.false_ne_true
  · have hsum := addElapsed_toNat connection.retransmitTimeoutMs connection.retransmitElapsedMs
    have hlt := connection.retransmitTimeoutMs.isLt
    rw [heq, BitVec.lt_def, hsum] at hwait
    omega
  · exact absurd hlimit (BitVec.not_le.2 hcount)
  · exact ⟨_, _, hresend⟩

/-- What the far side has received when nothing is missing. -/
theorem TcpLink.Steady.settled (h : link.Steady near far stream hlen)
    (hall : link.near.written.length + link.near.closed.toNat ≤ link.far.received) :
    link.Settled ∧ link.far.received = link.near.written.length + link.near.closed.toNat := by
  obtain rfl := h.written
  have hsettled := h.gapless.tracks.receives.receivesFrom.of_received hall
  refine ⟨hsettled, ?_⟩
  rw [TcpEndpoint.received, hsettled.1, hsettled.2]

/-- The acknowledgment that the far side builds comes back. -/
theorem TcpLink.Steady.returns (h : link.Steady near far stream hlen) (hmirror : near.Mirrors far)
    (hall : link.near.written.length + link.near.closed.toNat ≤ link.far.received)
    {window : BitVec 16} {ack : TcpSegment}
    (hack : tcpConnectionBuildAck link.far.world.connection window = some ack) :
    (link.near.step (.onSegment ack)).world.connection.sendUnacknowledged =
      (link.near.step (.onSegment ack)).world.connection.sendNext := by
  have hcarries := TcpSegment.carries_of_tcpBuild hack
  have hfrom := TcpSegment.isFrom_of_tcpBuild hack
  have hwaits := h.gapless.waits
  refine hwaits.acknowledged ?_ ?_ ?_ ?_
  · rw [TcpConnection.addressedBy, hfrom.sourcePort_eq, hfrom.destinationPort_eq, hwaits.localPort,
      hwaits.remotePort, h.gapless.farPorts.1, h.gapless.farPorts.2, hmirror.peerPorts,
      hmirror.ports, BEq.rfl, BEq.rfl]
    rfl
  · rw [TcpSegment.hasFlag, hcarries.flags_eq]
    decide
  · rw [TcpSegment.hasFlag, hcarries.flags_eq]
    decide
  · have hnext := h.gapless.tracks.receives.orderly.inOrder.next
    rw [hmirror.sequenceAt, ← TcpWorld.inOrder, ← TcpEndpoint.received, (h.settled hall).2] at hnext
    rw [hfrom.number, hnext, h.sends.near.next]

/-- The segment is sent again and taken. -/
theorem TcpLink.Steady.resend (h : link.Steady near far stream hlen) (hmirror : near.Mirrors far)
    (harmed : link.near.world.connection.hasRetransmitSegment = true)
    (hcount : link.near.world.connection.retransmitCount <
      link.near.world.connection.retransmitLimit)
    (hnear : link.near.world.connection.state ≠ .reset)
    (hfar : link.far.world.connection.state ≠ .reset) :
    let last := run TcpLink.step link link.resend
    Along TcpLink.step TcpLink.AllowsWaiting link link.resend ∧
      last.Steady near far stream hlen ∧
      last.near.written.length + last.near.closed.toNat ≤ last.far.received := by
  intro last
  obtain ⟨count, timeout, htick⟩ := tick_resends harmed hcount
  obtain ⟨hop₁, h₁⟩ := h.step_near hmirror
    (.tick link.near.world.connection.retransmitTimeoutMs) trivial (Or.inl ⟨_, rfl⟩)
  obtain ⟨hop₂, h₂⟩ := h₁.step_far hmirror
    (.read link.far.world.connection.receiveReady.length) trivial
  -- the connections after the two calls
  have hticked : (TcpOp.tick link.near.world.connection.retransmitTimeoutMs).effect
      link.near.world.connection = link.near.world.connection.timed 0 count timeout := by
    rw [TcpOp.effect, htick]
  have hemitted : link.near.world.connection.lastSegment ∈
      (link.near.step (.tick link.near.world.connection.retransmitTimeoutMs)).emitted := by
    rw [TcpEndpoint.step_emitted, TcpOp.emits, htick]
    exact List.mem_append_right _ (List.mem_singleton_self _)
  have hread : (TcpOp.read link.far.world.connection.receiveReady.length).effect
      link.far.world.connection = { link.far.world.connection with receiveReady := [] } := by
    rw [TcpOp.effect, read_eq, List.drop_length]
  obtain ⟨hop₃, h₃⟩ := h₂.step_far hmirror (.onSegment link.near.world.connection.lastSegment)
    hemitted
  refine ⟨⟨hop₁, hop₂, hop₃, trivial⟩, h₃, ?_⟩
  have htaken := h₂.gapless.resent hmirror h₂.sends h₂.written
    (by show ((TcpOp.tick _).effect link.near.world.connection).hasRetransmitSegment = true
        rw [hticked]; exact harmed)
    (by show ((TcpOp.tick _).effect link.near.world.connection).state ≠ .reset
        rw [hticked]; exact hnear)
    (by show ((TcpOp.read _).effect link.far.world.connection).state ≠ .reset
        rw [hread]; exact hfar)
    h₂.established
    (by show ((TcpOp.read _).effect link.far.world.connection).receiveReady = []
        rw [hread])
  have hlast : (TcpOp.effect link.near.world.connection
      (.tick link.near.world.connection.retransmitTimeoutMs)).lastSegment =
        link.near.world.connection.lastSegment := by
    rw [hticked]
    rfl
  change _ ≤ (TcpEndpoint.step _ (.onSegment (TcpOp.effect _ _).lastSegment)).received at htaken
  rw [hlast] at htaken
  exact htaken

/-- **One round without a loss**, from a link whose timer has a retransmission left. -/
theorem TcpLink.Steady.round (h : link.Steady near far stream hlen) (hmirror : near.Mirrors far)
    (harmed : link.near.world.connection.hasRetransmitSegment = true)
    (hcount : link.near.world.connection.retransmitCount <
      link.near.world.connection.retransmitLimit)
    (hnear : link.near.world.connection.state ≠ .reset)
    (hfar : link.far.world.connection.state ≠ .reset) (window : BitVec 16) :
    let last := run TcpLink.step link (link.round window)
    Along TcpLink.step TcpLink.AllowsWaiting link (link.round window) ∧ last.Settled ∧
      last.near.world.connection.sendUnacknowledged = last.near.world.connection.sendNext := by
  intro last
  obtain ⟨hops, hresent, hall⟩ := h.resend hmirror harmed hcount hnear hfar
  obtain ⟨ack, hack⟩ := tcpBuild_nil
    (run TcpLink.step link link.resend).far.world.connection.localPort
    (run TcpLink.step link link.resend).far.world.connection.remotePort
    (run TcpLink.step link link.resend).far.world.connection.sendNext
    (run TcpLink.step link link.resend).far.world.connection.receiveNext tcpFlagAck window
  have hnumber : link.acknowledgment window = ack := by
    rw [TcpLink.acknowledgment, tcpConnectionBuildAck, hack]
    rfl
  generalize hlink : run TcpLink.step link link.resend = resent at hresent hall hack
  obtain ⟨hop₄, h₄⟩ := hresent.step_far hmirror (.buildAck window) trivial
  have hemitted : ack ∈ (resent.far.step (.buildAck window)).emitted := by
    rw [TcpEndpoint.step_emitted, TcpOp.emits, tcpConnectionBuildAck, hack]
    exact List.mem_append_right _ (List.mem_singleton_self _)
  obtain ⟨hop₅, h₅⟩ := h₄.step_near hmirror (.onSegment ack) hemitted (Or.inr ⟨_, rfl⟩)
  have hlast : last = (resent.step (.far (.buildAck window))).step (.near (.onSegment ack)) := by
    show run _ _ _ = _
    rw [TcpLink.round, hnumber, Transition.run_append, hlink]
    rfl
  have hreturned : last.near.world.connection.sendUnacknowledged =
      last.near.world.connection.sendNext := by
    rw [hlast]
    exact h₄.returns hmirror hall hack
  rw [← hlast] at h₅
  refine ⟨?_, ?_, hreturned⟩
  · rw [TcpLink.round, Transition.along_append, hlink, hnumber]
    exact ⟨hops, hop₄, hop₅, trivial⟩
  · exact (h₅.settled (h₅.gapless.waits.settled h₅.gapless.tracks.covered hreturned)).1

/-- A run whose near side waits leads to a link that is ready for a round. -/
theorem TcpLink.steady_run (hmirror : near.Mirrors far) {ops : List TcpLinkOp}
    (hops : Along TcpLink.step TcpLink.AllowsWaiting (.start near far) ops)
    (hlen : (run TcpLink.step (.start near far) ops).near.written.length + 1 < 2 ^ 31) :
    (run TcpLink.step (.start near far) ops).Steady near far
      (run TcpLink.step (.start near far) ops).near.written hlen := by
  have hreachable : (run TcpLink.step (.start near far) ops).Reachable near far :=
    ⟨ops, hops.mono fun _ _ hop => hop.1, rfl⟩
  refine ⟨?_, hreachable.sends, rfl, hreachable.established.2⟩
  refine ((TcpLink.start_sends near far).le_last (fun _ _ hop => hop.1) hops).run_invariant
    (I := TcpLink.Gapless near far _ hlen) (fun link op hinv hstep => ?_)
    (TcpLink.start_gapless near far)
  obtain ⟨⟨hop, hsends⟩, hlast⟩ := hstep
  exact hinv.step hmirror hsends hop hlast.near.written fun hc => (hlast.near.closed hc).2

end Steady

/-- **Stop-and-wait recovers.**  In every state that a link reaches whose near side builds only
with everything acknowledged, the far side has all that was written and the FIN, if nothing is
outstanding.  If something is, and neither side is reset and the timer has a retransmission left,
one round without a loss leaves nothing outstanding. -/
theorem stopAndWait_recovers (near far : TcpHandshake) (hmirror : near.Mirrors far)
    (ops : List TcpLinkOp) (hops : Along TcpLink.step TcpLink.AllowsWaiting (.start near far) ops)
    (hlen : (run TcpLink.step (.start near far) ops).near.written.length + 1 < 2 ^ 31) :
    let link := run TcpLink.step (.start near far) ops
    let connection := link.near.world.connection
    (connection.sendUnacknowledged = connection.sendNext → link.Settled) ∧
      (connection.hasRetransmitSegment = true →
        connection.retransmitCount < connection.retransmitLimit → connection.state ≠ .reset →
        link.far.world.connection.state ≠ .reset → ∀ window,
          let last := run TcpLink.step link (link.round window)
          Along TcpLink.step TcpLink.AllowsWaiting link (link.round window) ∧ last.Settled ∧
            last.near.world.connection.sendUnacknowledged =
              last.near.world.connection.sendNext) := by
  intro link connection
  have hsteady : link.Steady near far link.near.written hlen := TcpLink.steady_run hmirror hops hlen
  refine ⟨fun hall => ?_, fun harmed hcount hnear hfar window => ?_⟩
  · exact (hsteady.settled (hsteady.gapless.waits.settled hsteady.gapless.tracks.covered hall)).1
  · exact hsteady.round hmirror harmed hcount hnear hfar window

/-- A write that has not arrived. -/
def lostWrite : List TcpLinkOp := [.near (.buildData [1, 2, 3] 64240)]

/-- The one write of the test is made with everything acknowledged. -/
theorem lostWrite_waits : Along TcpLink.step TcpLink.AllowsWaiting (.start .test .testPeer)
    lostWrite := by
  refine ⟨⟨trivial, fun _ => by decide +kernel, ?_⟩, trivial⟩
  rintro payload window ⟨⟩
  decide

theorem stopAndWait_recovers_lostWrite :
    let link := run TcpLink.step (.start .test .testPeer) lostWrite
    (run TcpLink.step link (link.round 64240)).far.world.inOrder = [1, 2, 3] := by
  intro link
  have hrecovers := (stopAndWait_recovers .test .testPeer test_mirrors lostWrite lostWrite_waits
    (by decide +kernel)).2 (by decide +kernel) (by decide +kernel) (by decide +kernel)
    (by decide +kernel) 64240
  exact hrecovers.2.1.1.trans (by decide +kernel)

end Netstack
