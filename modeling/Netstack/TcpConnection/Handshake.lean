/-
# The handshake among other segments

A handshake takes one SYN-ACK, but it is not the only segment that can arrive while the
connection waits: data can overtake it, acknowledgments of anything can come, it can be
for another SYN, and after it was taken it can come again.

`TcpConnection.WaitsLike` says what all this leaves of a waiting connection, and
`onSegment_waiting` that the SYN-ACK which is taken in the end leaves the same connection
as if it had come first.  Behind the handshake a SYN flag is not looked at
(`onSegment_withoutSyn`), so a SYN-ACK that comes again is a bare acknowledgment.
-/

import Netstack.TcpConnection.Recovery

namespace Netstack

open Transition (run Along)

/-! ### Waiting -/

/-- `connection` waits like `waiting`: the timer, the window and the acknowledged number aside it is
the same. -/
structure TcpConnection.WaitsLike (connection waiting : TcpConnection) : Prop where
  sendInv : SendInv connection
  state : connection.state = .synSent
  same : connection = { waiting with
    sendUnacknowledged := connection.sendUnacknowledged
    remoteWindow := connection.remoteWindow
    retransmitTimeoutMs := connection.retransmitTimeoutMs
    retransmitElapsedMs := connection.retransmitElapsedMs
    retransmitCount := connection.retransmitCount
    hasRetransmitSegment := connection.hasRetransmitSegment }

section Waiting

variable {connection waiting : TcpConnection} {segment : TcpSegment}

theorem TcpConnection.WaitsLike.refl (hinv : SendInv waiting) (hstate : waiting.state = .synSent) :
    waiting.WaitsLike waiting := ⟨hinv, hstate, rfl⟩

/-- Acknowledgments leave the connection waiting. -/
theorem TcpConnection.WaitsLike.afterAck (h : connection.WaitsLike waiting)
    (segment : TcpSegment) : (connection.afterAck segment).WaitsLike waiting := by
  refine ⟨h.sendInv.afterAck segment, ?_, ?_⟩
  · rw [TcpConnection.afterAck_state]
    exact h.state
  · have hsame := h.same
    rw [TcpConnection.afterAck_eq]
    generalize connection.sendUnacknowledged = una, connection.remoteWindow = window,
      connection.retransmitTimeoutMs = timeout, connection.retransmitElapsedMs = elapsed,
      connection.retransmitCount = count, connection.hasRetransmitSegment = has at hsame ⊢
    subst hsame
    split_ifs <;> rfl

/-- What a connection that waits for its SYN-ACK shares with the one that has just built the SYN.
-/
theorem TcpConnection.WaitsLike.ports (h : connection.WaitsLike waiting) :
    connection.localPort = waiting.localPort ∧ connection.remotePort = waiting.remotePort ∧
      connection.sendNext = waiting.sendNext ∧ connection.lastSegment = waiting.lastSegment := by
  have hsame := h.same
  refine ⟨?_, ?_, ?_, ?_⟩ <;> rw [hsame]

/-- What is acknowledged once the number behind the SYN came with an acknowledgment. -/
theorem SendInv.afterAck_acknowledged (hinv : SendInv connection)
    (hflag : segment.hasFlag tcpFlagAck = true)
    (hnumber : segment.acknowledgmentNumber = connection.sendNext) :
    (connection.afterAck segment).sendUnacknowledged = connection.sendNext := by
  rw [TcpConnection.afterAck_sendUnacknowledged]
  split_ifs with haccepts
  · exact hnumber
  · -- nothing was outstanding
    rw [hinv.acceptsAck_iff, hnumber] at haccepts
    have hzero : (connection.sendNext - connection.sendUnacknowledged).toNat = 0 := by
      by_contra hne
      exact haccepts ⟨hflag, Nat.pos_of_ne_zero hne, le_rfl⟩
    exact (SerialNumber.toNat_sub_eq_zero.1 hzero).symm

/-- The handshake leaves a connection that depends on what came before through the acknowledged
number and the timer alone, so that the session after it is the same. -/
theorem TcpConnection.WaitsLike.opened_eq (h : connection.WaitsLike waiting)
    (segment : TcpSegment) : connection.opened segment = ({ waiting with
      sendUnacknowledged := connection.sendUnacknowledged
      remoteWindow := connection.remoteWindow } : TcpConnection).opened segment := by
  conv_lhs => rw [h.same]
  rfl

/-- The SYN-ACK leaves nothing of what came before it. -/
theorem TcpConnection.WaitsLike.opened (h : connection.WaitsLike waiting)
    (hwaiting : waiting.WaitsLike waiting) (hflag : segment.hasFlag tcpFlagAck = true)
    (hnumber : segment.acknowledgmentNumber = waiting.sendNext) :
    (connection.afterAck segment).opened segment = (waiting.afterAck segment).opened segment := by
  have hacked := h.sendInv.afterAck_acknowledged hflag (hnumber.trans h.ports.2.2.1.symm)
  have hother := hwaiting.sendInv.afterAck_acknowledged hflag hnumber
  rw [(h.afterAck segment).opened_eq, (hwaiting.afterAck segment).opened_eq, hacked, hother,
    h.ports.2.2.1]
  rfl

/-- **A segment for a waiting connection**: the connection waits on, or it is reset, or the
handshake is completed, with the connection that the SYN-ACK alone leaves. -/
theorem onSegment_waiting (h : connection.WaitsLike waiting) (hwaiting : waiting.WaitsLike waiting)
    (segment : TcpSegment) :
    ((tcpConnectionOnSegment connection segment).1 ≤ 0 ∧
        (tcpConnectionOnSegment connection segment).2.WaitsLike waiting) ∨
      ((tcpConnectionOnSegment connection segment).1 = 0 ∧
        (tcpConnectionOnSegment connection segment).2.state = .reset) ∨
      ((tcpConnectionOnSegment connection segment).1 = 1 ∧
        (tcpConnectionOnSegment connection segment).2.state = .established ∧
        tcpConnectionOnSegment waiting segment = tcpConnectionOnSegment connection segment) := by
  have haddressed : waiting.addressedBy segment = connection.addressedBy segment := by
    unfold TcpConnection.addressedBy
    rw [h.ports.1, h.ports.2.1]
  have hafter := h.afterAck segment
  have hafter' := hwaiting.afterAck segment
  unfold tcpConnectionOnSegment
  rw [haddressed]
  by_cases hports : connection.addressedBy segment = true
  swap
  · rw [if_pos (by simpa using hports)]
    exact Or.inl ⟨(by decide : (-1 : ℤ) ≤ 0), h⟩
  have hthere : ¬(!connection.addressedBy segment) = true := by simpa using hports
  rw [if_neg hthere, if_neg hthere]
  by_cases hrst : segment.hasFlag tcpFlagRst = true
  · rw [if_pos hrst]
    exact Or.inr (Or.inl ⟨rfl, rfl⟩)
  rw [if_neg hrst, if_neg hrst]
  dsimp only
  rw [if_pos hafter.state, if_pos hafter'.state]
  unfold processHandshake
  by_cases hsynAck : segment.flags &&& (tcpFlagSyn ||| tcpFlagAck) = tcpFlagSyn ||| tcpFlagAck
  swap
  · rw [if_neg hsynAck]
    exact Or.inl ⟨le_rfl, hafter⟩
  rw [if_pos hsynAck, if_pos hsynAck]
  by_cases hnumber : segment.acknowledgmentNumber = waiting.sendNext
  swap
  · rw [if_pos (by rwa [hafter.ports.2.2.1])]
    exact Or.inl ⟨(by decide : (-1 : ℤ) ≤ 0), hafter⟩
  rw [if_neg (by rwa [hafter.ports.2.2.1, not_not]),
    if_neg (by rwa [hafter'.ports.2.2.1, not_not])]
  have hflag : segment.hasFlag tcpFlagAck = true :=
    TcpSegment.hasFlag_ack_of_isSynAck (beq_iff_eq.2 hsynAck)
  have hopened := h.opened hwaiting hflag hnumber
  exact Or.inr (Or.inr ⟨rfl, rfl, congrArg (Prod.mk 1) hopened.symm⟩)

/-- **The timer of a waiting connection** gives up, or the connection waits on, and it was the SYN
that was sent again. -/
theorem tick_waiting (h : connection.WaitsLike waiting) (elapsedMs : BitVec 32) :
    (tcpConnectionTick connection elapsedMs).result < 0 ∨
      (tcpConnectionTick connection elapsedMs).connection.WaitsLike waiting ∧
        ((tcpConnectionTick connection elapsedMs).result = 0 ∨
          (tcpConnectionTick connection elapsedMs).result = 1 ∧
            (tcpConnectionTick connection elapsedMs).segment = some waiting.lastSegment) := by
  have htimed : ∀ elapsed count timeout,
      (connection.timed elapsed count timeout).WaitsLike waiting := by
    intro elapsed count timeout
    have hinv : SendInv (connection.timed elapsed count timeout) :=
      ⟨h.sendInv.window, h.sendInv.armed, h.sendInv.ends, h.sendInv.begins⟩
    refine ⟨hinv, h.state, ?_⟩
    unfold TcpConnection.timed
    conv_lhs => rw [h.same]
  rcases tick_cases connection elapsedMs with
    ⟨-, heq⟩ | ⟨-, elapsed, -, ⟨-, heq⟩ | ⟨-, -, heq⟩ | ⟨-, -, heq⟩⟩
  · rw [heq]
    exact Or.inr ⟨h, Or.inl rfl⟩
  · rw [heq]
    exact Or.inr ⟨htimed _ _ _, Or.inl rfl⟩
  · rw [heq]
    exact Or.inl (by decide : (-1 : ℤ) < 0)
  · rw [heq, h.ports.2.2.2]
    exact Or.inr ⟨htimed _ _ _, Or.inr ⟨rfl, rfl⟩⟩

end Waiting

/-- The connection that `tcp_connection_build_syn` leaves behind `tcp_connection_init`. -/
def tcpWaiting (localPort remotePort : BitVec 16) (initialSequence : BitVec 32)
    (window : BitVec 16) : TcpConnection :=
  (tcpConnectionBuildSyn (tcpConnectionInit localPort remotePort initialSequence) window).connection

section Init

variable {localPort remotePort : BitVec 16} {initialSequence : BitVec 32} {window : BitVec 16}

/-- The SYN of a closed connection has its ports and its next sequence number, and acknowledges
nothing. -/
theorem buildSyn_segment (connection : TcpConnection) (hstate : connection.state = .closed)
    (window : BitVec 16) : (tcpConnectionBuildSyn connection window).segment =
      tcpBuild connection.localPort connection.remotePort connection.sendNext 0 tcpFlagSyn window
        [] := by
  unfold tcpConnectionBuildSyn
  rw [if_neg (not_not.2 hstate)]
  split <;> exact Eq.symm ‹_›

/-- **The SYN** of a new connection, and the connection that waits for an answer to it. -/
theorem tcpWaiting_cases (localPort remotePort : BitVec 16) (initialSequence : BitVec 32)
    (window : BitVec 16) : ∃ syn : TcpSegment,
      tcpBuild localPort remotePort initialSequence 0 tcpFlagSyn window [] = some syn ∧
      tcpConnectionBuildSyn (tcpConnectionInit localPort remotePort initialSequence) window =
        ⟨0, tcpWaiting localPort remotePort initialSequence window, some syn⟩ ∧
      (tcpWaiting localPort remotePort initialSequence window).lastSegment = syn ∧
      (tcpWaiting localPort remotePort initialSequence window).WaitsLike
        (tcpWaiting localPort remotePort initialSequence window) := by
  have hclosing := (TcpWorld.closing_init localPort remotePort initialSequence).step
    (.buildSyn window)
  have hsegment := buildSyn_segment (tcpConnectionInit localPort remotePort initialSequence) rfl
    window
  unfold tcpWaiting
  rcases buildSyn_cases (tcpConnectionInit localPort remotePort initialSequence) window with
    ⟨hne, -⟩ | ⟨-, syn, -, heq⟩
  · exact absurd rfl hne
  · have hinv : SendInv (tcpConnectionBuildSyn
        (tcpConnectionInit localPort remotePort initialSequence) window).connection :=
      hclosing.sendInv
    rw [heq] at hsegment hinv ⊢
    exact ⟨syn, hsegment.symm, rfl, rfl, .refl hinv rfl⟩

/-- The segment without its payload. -/
def TcpSegment.stripped (segment : TcpSegment) : TcpSegment :=
  { segment with payload := [], payload_le := Nat.zero_le _ }

/-- The payload of a SYN-ACK is not looked at. -/
theorem onSegment_stripped {connection : TcpConnection} (hstate : connection.state = .synSent)
    (segment : TcpSegment) : tcpConnectionOnSegment connection segment.stripped =
      tcpConnectionOnSegment connection segment := by
  have hafter : ∀ s : TcpSegment, (connection.afterAck s).state = .synSent := fun s => by
    rw [TcpConnection.afterAck_state, hstate]
  unfold tcpConnectionOnSegment
  dsimp only
  rw [if_pos (hafter segment), if_pos (hafter segment.stripped)]
  rfl

/-- The handshake that a SYN-ACK completes. -/
def TcpHandshake.of (localPort remotePort : BitVec 16) (initialSequence : BitVec 32)
    (window : BitVec 16) (synAck : TcpSegment)
    (accepted : (tcpConnectionOnSegment
      (tcpWaiting localPort remotePort initialSequence window) synAck).1 = 1) : TcpHandshake where
  localPort := localPort
  remotePort := remotePort
  initialSequence := initialSequence
  window := window
  synAck := synAck.stripped
  synAck_payload := rfl
  accepted := by
    obtain ⟨-, -, -, -, hwaits⟩ :=
      tcpWaiting_cases localPort remotePort initialSequence window
    exact (congrArg Prod.fst (onSegment_stripped hwaits.state synAck)).trans accepted

/-- The session begins with the connection that the SYN-ACK leaves. -/
theorem TcpHandshake.of_start {synAck : TcpSegment}
    (accepted : (tcpConnectionOnSegment
      (tcpWaiting localPort remotePort initialSequence window) synAck).1 = 1) :
    (TcpHandshake.of localPort remotePort initialSequence window synAck accepted).start.world.connection =
      (tcpConnectionOnSegment (tcpWaiting localPort remotePort initialSequence window) synAck).2 := by
  obtain ⟨-, -, -, -, hwaits⟩ :=
    tcpWaiting_cases localPort remotePort initialSequence window
  exact congrArg Prod.snd (onSegment_stripped hwaits.state synAck)

end Init

/-! ### Behind the handshake -/

/-- The segment without its SYN flag. -/
def TcpSegment.withoutSyn (segment : TcpSegment) : TcpSegment :=
  { segment with flags := segment.flags &&& ~~~tcpFlagSyn }

section WithoutSyn

variable {connection : TcpConnection} {world : TcpWorld} {segment : TcpSegment}

theorem TcpSegment.withoutSyn_hasFlag {flag : BitVec 8} (hflag : ~~~tcpFlagSyn &&& flag = flag) :
    segment.withoutSyn.hasFlag flag = segment.hasFlag flag := by
  rw [hasFlag, hasFlag, withoutSyn, BitVec.and_assoc, hflag]

/-- ACK processing does not look at the SYN flag. -/
theorem TcpSegment.withoutSyn_afterAck :
    connection.afterAck segment.withoutSyn = connection.afterAck segment := by
  have hack : connection.acceptsAck segment.withoutSyn = connection.acceptsAck segment := by
    unfold TcpConnection.acceptsAck
    rw [withoutSyn_hasFlag (by decide)]
    rfl
  unfold TcpConnection.afterAck processAck
  rw [hack]
  rfl

/-- `process_fin` does not look at the SYN flag either. -/
theorem TcpSegment.withoutSyn_processFin :
    processFin connection segment.withoutSyn = processFin connection segment := by
  unfold processFin
  rw [withoutSyn_hasFlag (by decide)]
  rfl

/-- **Behind the handshake the SYN flag is not looked at.** -/
theorem onSegment_withoutSyn (hstate : connection.state ≠ .synSent) :
    tcpConnectionOnSegment connection segment.withoutSyn =
      tcpConnectionOnSegment connection segment := by
  have hpayload : ∀ c, processPayload c segment.withoutSyn = processPayload c segment :=
    fun _ => rfl
  have hafter : (connection.afterAck segment).state ≠ .synSent := by
    rwa [TcpConnection.afterAck_state]
  unfold tcpConnectionOnSegment
  rw [TcpSegment.withoutSyn_hasFlag (by decide), TcpSegment.withoutSyn_afterAck]
  dsimp only
  rw [if_neg hafter, if_neg hafter, hpayload, TcpSegment.withoutSyn_processFin]
  rfl

/-- Outside of SYN-SENT a segment is processed as if it had no SYN flag: the flag is looked at by
the handshake only. A repeated SYN-ACK is therefore a segment like any other. -/
theorem onSegmentFins_withoutSyn (hstate : connection.state ≠ .synSent) :
    onSegmentFins connection segment.withoutSyn = onSegmentFins connection segment := by
  have hpayload : ∀ c, processPayload c segment.withoutSyn = processPayload c segment :=
    fun _ => rfl
  have hdue : ∀ c : TcpConnection, c.finDue segment.withoutSyn = c.finDue segment := fun c => by
    unfold TcpConnection.finDue
    rw [TcpSegment.withoutSyn_hasFlag (by decide)]
    rfl
  have hafter : (connection.afterAck segment).state ≠ .synSent := by
    rwa [TcpConnection.afterAck_state]
  unfold onSegmentFins
  rw [TcpSegment.withoutSyn_hasFlag (by decide), TcpSegment.withoutSyn_afterAck]
  dsimp only
  rw [if_neg hafter, if_neg hafter, hpayload, hdue, TcpSegment.withoutSyn_processFin]
  rfl

/-- What happened to the connection is the same without the flag. -/
theorem TcpWorld.step_withoutSyn (hstate : world.connection.state ≠ .synSent)
    (segment : TcpSegment) :
    world.step (.onSegment segment.withoutSyn) = world.step (.onSegment segment) := by
  have hacked : world.connection.acknowledgedBy segment.withoutSyn =
      world.connection.acknowledgedBy segment := by
    unfold TcpConnection.acknowledgedBy TcpConnection.acceptsAck
    rw [TcpSegment.withoutSyn_hasFlag (by decide), TcpSegment.withoutSyn_hasFlag (by decide)]
    rfl
  have heffect : (TcpOp.onSegment segment.withoutSyn).effect world.connection =
      (TcpOp.onSegment segment).effect world.connection :=
    congrArg Prod.snd (onSegment_withoutSyn hstate)
  unfold TcpWorld.step
  rw [heffect, TcpHistory.record_onSegment, TcpHistory.record_onSegment,
    onSegment_withoutSyn hstate, onSegmentFins_withoutSyn hstate]
  unfold TcpHistory.received
  rw [hacked]
  rfl

end WithoutSyn

/-! ### Where segments go -/

/-- The segment goes from one port to the other, and has no options. -/
structure TcpSegment.Goes (segment : TcpSegment) (sourcePort destinationPort : BitVec 16) :
    Prop where
  sourcePort_eq : segment.sourcePort = sourcePort
  destinationPort_eq : segment.destinationPort = destinationPort
  dataOffset_eq : segment.dataOffset = 5
  options_eq : segment.options = []

/-- All that the connection has sent, and can send again, goes from the port of the handshake to the
one of the peer. -/
structure TcpEndpoint.Addresses (endpoint : TcpEndpoint) (handshake : TcpHandshake) : Prop where
  bounded : endpoint.world.connection.SlotsBounded
  localPort : endpoint.world.connection.localPort = handshake.localPort
  remotePort : endpoint.world.connection.remotePort = handshake.remotePort
  emitted : ∀ segment ∈ endpoint.emitted, segment.Goes handshake.localPort handshake.remotePort
  armed : endpoint.world.connection.hasRetransmitSegment = true →
    endpoint.world.connection.lastSegment.Goes handshake.localPort handshake.remotePort

section Addresses

variable {endpoint : TcpEndpoint} {handshake : TcpHandshake}

theorem TcpSegment.IsFrom.goes {segment : TcpSegment} {connection : TcpConnection}
    (h : segment.IsFrom connection) : segment.Goes connection.localPort connection.remotePort :=
  ⟨h.sourcePort_eq, h.destinationPort_eq, h.dataOffset_eq, h.options_eq⟩

/-- A call keeps the ports of an endpoint, and what it emits is addressed with them; a segment
that is sent again was built with them. -/
theorem TcpEndpoint.Addresses.step (h : endpoint.Addresses handshake) {op : TcpOp}
    (hop : ∀ window, op ≠ .buildSyn window) : (endpoint.step op).Addresses handshake := by
  have hports := op.ports h.bounded
  have hfrom : ∀ segment : TcpSegment, segment.IsFrom endpoint.world.connection →
      segment.Goes handshake.localPort handshake.remotePort := by
    intro segment hsegment
    rw [← h.localPort, ← h.remotePort]
    exact hsegment.goes
  refine ⟨op.slotsBounded h.bounded, hports.1.trans h.localPort, hports.2.trans h.remotePort,
    fun segment hsegment => ?_, fun hhas => ?_⟩
  · rw [TcpEndpoint.step_emitted, List.mem_append] at hsegment
    rcases hsegment with hold | hnew
    · exact h.emitted segment hold
    · rcases TcpOp.emits_isFrom (Option.mem_toList.1 hnew) hop with hsegment | ⟨hhas, rfl⟩
      · exact hfrom segment hsegment
      · exact h.armed hhas
  · rcases op.built_cases h.bounded with hbuilt | ⟨-, hlast, harmed⟩
    · exact hfrom _ (TcpOp.built_isFrom hbuilt hop).1
    · rw [TcpEndpoint.step_world, TcpWorld.step_connection, hlast]
      exact h.armed (harmed hhas)

/-- Everything that a session emits is addressed from its port to the port of the peer. -/
theorem TcpHandshake.addresses_run (handshake : TcpHandshake) {ops : List TcpOp}
    (h : ∀ op ∈ ops, ∀ window, op ≠ .buildSyn window) :
    (run TcpEndpoint.step handshake.start ops).Addresses handshake := by
  have hopened := handshake.start_opened
  have hops : Along TcpEndpoint.step (fun _ op => ∀ window, op ≠ .buildSyn window)
      handshake.start ops := Transition.along_of_forall h
  refine hops.run_invariant (I := fun endpoint : TcpEndpoint => endpoint.Addresses handshake)
    (fun _ _ hinv hop => hinv.step hop) ⟨hopened.closing.bounded, hopened.localPort,
      hopened.remotePort, fun _ hsegment => absurd hsegment List.not_mem_nil, fun hhas => ?_⟩
  exact absurd (hopened.unarmed.symm.trans hhas) Bool.false_ne_true

end Addresses

end Netstack
