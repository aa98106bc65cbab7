/-
# What an acknowledgment is worth

A connection drops a sequence number from what it has outstanding when an accepted
acknowledgment covers it, and it takes its FIN for acknowledged in the same way.  Over a
link both mean that the peer has it: `link_acknowledged` says so of every byte and of the
FIN, in every reachable state, also when something was built while something else was
outstanding.  So the closing states promise something about the other side
(`TcpLink.Promises`): FIN-WAIT-2 that the peer has everything and the FIN, and CLOSED
that this holds in both directions.

The argument goes through the acknowledgment numbers under way.  Every segment that a side
has emitted carries a number that it had reached then, so one that it has reached
(`TcpEndpoint.Acknowledges`), and a sequence number of the peer's is covered only below it.
-/

import Netstack.TcpConnection.Link

namespace Netstack

open SerialNumber (dist)
open Transition (run Along)

/-- How far reception has come: the bytes in order and the FIN. -/
def TcpEndpoint.received (endpoint : TcpEndpoint) : ℕ :=
  endpoint.world.inOrder.length + endpoint.world.history.peerFins

/-- What the history of one side takes for acknowledged the other side has. -/
structure TcpEndpoint.AcknowledgedBy (endpoint peer : TcpEndpoint) (base : BitVec 32) : Prop where
  bytes : ∀ i < endpoint.written.length,
    base + BitVec.ofNat 32 i ∉ endpoint.world.history.unacked → i < peer.world.inOrder.length
  fin : endpoint.world.history.finAcked = true → endpoint.closed = true ∧
    peer.world.inOrder = endpoint.written ∧ peer.world.history.peerFins = 1

/-- What the state of one side says about the streams of both. -/
def TcpEndpoint.Promises (endpoint peer : TcpEndpoint) : TcpConnectionState → Prop
  | .finWait2 => peer.world.inOrder = endpoint.written ∧ peer.world.history.peerFins = 1
  | .closeWait | .lastAck | .timeWait => endpoint.world.inOrder = peer.written ∧ peer.closed = true
  | .closed => (peer.world.inOrder = endpoint.written ∧ peer.world.history.peerFins = 1) ∧
      endpoint.world.inOrder = peer.written ∧ peer.closed = true
  | .synSent | .established | .finWait1 | .reset => True

/-! ### Reception goes on -/

/-- The ready bytes only grow while a segment is processed: what was in order stays where it was,
and new bytes come behind it. This is what lets an acknowledgment of the past be kept. -/
theorem ReceivePath.ready_prefix {segment : TcpSegment} {start last : TcpConnection} {n : ℕ}
    (h : ReceivePath segment start n last) : start.receiveReady <+: last.receiveReady :=
  h.invariant (P := fun _ c => start.receiveReady <+: c.receiveReady)
    (fun n connection next hP hstep => by
      refine hP.trans ?_
      cases hstep with
      | accept => exact List.prefix_append _ _
      | buffer | remember => exact List.prefix_rfl
      | promote step =>
          cases step with
          | discard =>
              rw [removeReassemblySlot_receiveReady]
          | deliver =>
              rw [removeReassemblySlot_receiveReady]
              exact List.prefix_append _ _)
    (fun n connection next hP hstep => by
      cases hstep <;> exact hP)
    List.prefix_rfl

/-- An incoming segment only adds to what is ready. -/
theorem OnSegment.ready_prefix {segment : TcpSegment} {connection last : TcpConnection}
    {result : ℤ} {n : ℕ} (h : OnSegment segment connection result n last)
    (hrst : segment.hasFlag tcpFlagRst = false) :
    connection.receiveReady <+: last.receiveReady := by
  have hack := connection.afterAck_receiveReady segment
  cases h with
  | misaddressed => exact List.prefix_rfl
  | aborted _ rst => exact absurd (hrst.symm.trans rst) Bool.false_ne_true
  | unanswered | mismatched | ignored => rw [hack]
  | opened => exact hack ▸ List.prefix_rfl
  | refused _ _ _ payload => exact hack ▸ payload.path.ready_prefix
  | received _ _ _ payload =>
      rw [finishClose_receiveReady]
      exact hack ▸ payload.received_path.ready_prefix

/-- **Nothing that was received is taken back.** -/
theorem TcpEndpoint.received_le_step {endpoint : TcpEndpoint} {op : TcpOp}
    (hb : endpoint.world.connection.SlotsBounded) (hsyn : ∀ window, op ≠ .buildSyn window)
    (hrst : ∀ segment, op = .onSegment segment → segment.hasFlag tcpFlagRst = false) :
    endpoint.received ≤ (endpoint.step op).received := by
  unfold TcpEndpoint.received TcpWorld.inOrder
  by_cases hseg : ∃ segment, op = .onSegment segment
  · obtain ⟨segment, rfl⟩ := hseg
    have hcall := onSegment_spec segment hb
    have hready := (hcall.ready_prefix (hrst segment rfl)).length_le
    rw [TcpEndpoint.step_world, TcpWorld.step_history, TcpHistory.record_onSegment,
      TcpHistory.received_delivered, TcpHistory.received_peerFins, List.length_append,
      List.length_append]
    exact Nat.add_le_add (Nat.add_le_add_left hready _) (Nat.le_add_right _ _)
  · have hne : ∀ segment, op ≠ .onSegment segment := fun segment heq => hseg ⟨segment, heq⟩
    have hpeer := endpoint.world.history.record_peer endpoint.world.connection hne hsyn
    have hbytes := endpoint.world.step_bytes hne
    rw [TcpEndpoint.step_world, hbytes, TcpWorld.step_history, hpeer.1]

/-! ### The numbers under way -/

/-- The segment goes from the local to the remote port, without options, and acknowledges what the
connection has received. -/
structure TcpSegment.IsFrom (segment : TcpSegment) (connection : TcpConnection) : Prop where
  sourcePort_eq : segment.sourcePort = connection.localPort
  destinationPort_eq : segment.destinationPort = connection.remotePort
  number : segment.acknowledgmentNumber = connection.receiveNext
  dataOffset_eq : segment.dataOffset = 5
  options_eq : segment.options = []

/-- A built segment has no options. -/
theorem tcpBuild_header {sp dp : BitVec 16} {seq ack : BitVec 32} {flags : BitVec 8}
    {window : BitVec 16} {payload : List UInt8} {segment : TcpSegment}
    (h : tcpBuild sp dp seq ack flags window payload = some segment) :
    segment.dataOffset = 5 ∧ segment.options = [] := by
  unfold tcpBuild at h
  split at h
  · cases h
  · obtain rfl := Option.some.inj h
    exact ⟨rfl, rfl⟩

/-- Every builder hands the ports and `receive_next` of its connection to `tcp_build`, so that
whatever is emitted acknowledges exactly what its connection has. -/
theorem TcpSegment.isFrom_of_tcpBuild {connection : TcpConnection} {seq : BitVec 32}
    {flags : BitVec 8} {window : BitVec 16} {payload : List UInt8} {segment : TcpSegment}
    (h : tcpBuild connection.localPort connection.remotePort seq connection.receiveNext flags window
      payload = some segment) : segment.IsFrom connection := by
  obtain ⟨hsource, hdestination, -, hnumber, -⟩ := tcpBuild_eq_some h
  obtain ⟨hoffset, hoptions⟩ := tcpBuild_header h
  exact ⟨hsource, hdestination, hnumber, hoffset, hoptions⟩

/-- What is built after the handshake: from the fields of the connection, with the payload of
`build_data` or none. -/
theorem TcpOp.built_isFrom {op : TcpOp} {connection : TcpConnection} {segment : TcpSegment}
    (h : op.built connection = some segment) (hsyn : ∀ window, op ≠ .buildSyn window) :
    segment.IsFrom connection ∧
      (segment.payload = [] ∨ ∃ window, op = .buildData segment.payload window) := by
  cases op with
  | buildSyn window => exact absurd rfl (hsyn window)
  | onSegment | read | buildAck | tick => cases h
  | buildData payload window =>
      rw [TcpOp.built, tcpConnectionBuildData] at h
      split at h
      · cases h
      split at h
      · cases h
      · rename_i hbuilt
        obtain rfl := Option.some.inj h
        refine ⟨TcpSegment.isFrom_of_tcpBuild hbuilt, Or.inr ⟨window, ?_⟩⟩
        rw [(TcpSegment.carries_of_tcpBuild hbuilt).payload_eq]
  | buildFin window =>
      rw [TcpOp.built, tcpConnectionBuildFin] at h
      split at h
      · cases h
      split at h
      · cases h
      · rename_i hbuilt
        obtain rfl := Option.some.inj h
        exact ⟨TcpSegment.isFrom_of_tcpBuild hbuilt,
          Or.inl (TcpSegment.carries_of_tcpBuild hbuilt).payload_eq⟩

/-- What a call of an established session emits is from the connection or remembered. -/
theorem TcpOp.emits_isFrom {op : TcpOp} {connection : TcpConnection} {segment : TcpSegment}
    (h : op.emits connection = some segment) (hsyn : ∀ window, op ≠ .buildSyn window) :
    segment.IsFrom connection ∨
      connection.hasRetransmitSegment = true ∧ segment = connection.lastSegment := by
  cases op with
  | buildSyn window => exact absurd rfl (hsyn window)
  | onSegment | read => cases h
  | buildAck window =>
      have hbuilt : tcpConnectionBuildAck connection window = some segment := h
      exact Or.inl (TcpSegment.isFrom_of_tcpBuild hbuilt)
  | buildData payload window =>
      have hbuilt : (TcpOp.buildData payload window).built connection = some segment := h
      exact Or.inl (TcpOp.built_isFrom hbuilt hsyn).1
  | buildFin window =>
      have hbuilt : (TcpOp.buildFin window).built connection = some segment := h
      exact Or.inl (TcpOp.built_isFrom hbuilt hsyn).1
  | tick elapsedMs =>
      right
      rw [TcpOp.emits] at h
      rcases tick_cases connection elapsedMs with
        ⟨-, heq⟩ | ⟨hhas, _, -, ⟨-, heq⟩ | ⟨-, -, heq⟩ | ⟨-, -, heq⟩⟩ <;> rw [heq] at h
      · cases h
      · cases h
      · cases h
      · exact ⟨hhas, (Option.some.inj h).symm⟩

/-- The segment acknowledges at most `n` sequence numbers. -/
def TcpSegment.AcksWithin (segment : TcpSegment) (base : BitVec 32) (n : ℕ) : Prop :=
  ∃ k ≤ n, segment.acknowledgmentNumber = base + BitVec.ofNat 32 k

theorem TcpSegment.AcksWithin.mono {segment : TcpSegment} {base : BitVec 32} {m n : ℕ}
    (h : segment.AcksWithin base m) (hmn : m ≤ n) : segment.AcksWithin base n := by
  obtain ⟨k, hk, heq⟩ := h
  exact ⟨k, hk.trans hmn, heq⟩

/-- Whatever was or can be sent acknowledges nothing that has not arrived. -/
structure TcpEndpoint.Acknowledges (endpoint : TcpEndpoint) (base : BitVec 32) : Prop where
  emitted : ∀ segment ∈ endpoint.emitted, segment.AcksWithin base endpoint.received
  armed : endpoint.world.connection.hasRetransmitSegment = true →
    endpoint.world.connection.lastSegment.AcksWithin base endpoint.received

/-- A call keeps what an endpoint has acknowledged below what it has received: a segment built
now acknowledges `receive_next`, one sent again acknowledges what that was when it was built, and
`receive_next` does not go back. -/
theorem TcpEndpoint.Acknowledges.step {endpoint : TcpEndpoint} {base : BitVec 32}
    (h : endpoint.Acknowledges base) (hclosing : endpoint.world.Closing)
    (hnext : endpoint.world.connection.receiveNext =
      base + BitVec.ofNat 32 endpoint.received) {op : TcpOp}
    (hsyn : ∀ window, op ≠ .buildSyn window)
    (hgrows : endpoint.received ≤ (endpoint.step op).received) :
    (endpoint.step op).Acknowledges base := by
  have hkeep : ∀ segment : TcpSegment, segment.AcksWithin base endpoint.received →
      segment.AcksWithin base (endpoint.step op).received := fun _ hs => hs.mono hgrows
  have hemits : ∀ segment, op.emits endpoint.world.connection = some segment →
      segment.AcksWithin base (endpoint.step op).received := by
    intro segment hsome
    rcases TcpOp.emits_isFrom hsome hsyn with hfrom | ⟨hhas, rfl⟩
    · exact hkeep _ ⟨endpoint.received, le_rfl, hfrom.number.trans hnext⟩
    · exact hkeep _ (h.armed hhas)
  refine ⟨fun segment hmem => ?_, fun hhas => ?_⟩
  · rw [TcpEndpoint.step_emitted, List.mem_append] at hmem
    rcases hmem with hold | hnew
    · exact hkeep segment (h.emitted segment hold)
    · exact hemits segment (Option.mem_toList.1 hnew)
  · show (op.effect endpoint.world.connection).lastSegment.AcksWithin _ _
    have hemission := op.emission hclosing hsyn
    cases hemission with
    | again _ _ _ last armed =>
        rw [last]
        exact hkeep _ (h.armed (armed hhas))
    | data _ _ _ effect emits =>
        rw [effect]
        exact hemits _ emits
    | fin _ _ _ effect emits =>
        rw [effect]
        exact hemits _ emits

/-! ### What is no longer outstanding -/

/-- What a call that is not about an incoming segment does to the record of what is
outstanding. -/
theorem TcpHistory.record_unacked (history : TcpHistory) (connection : TcpConnection) {op : TcpOp}
    (hop : ∀ segment, op ≠ .onSegment segment) (hsyn : ∀ window, op ≠ .buildSyn window) :
    (history.record connection op).unacked = history.unacked ++
        ((op.built connection).map TcpSegment.sequenceNumbers).getD [] ∧
      (history.record connection op).finAcked = history.finAcked := by
  cases op with
  | buildSyn window => exact absurd rfl (hsyn window)
  | onSegment segment => exact absurd rfl (hop segment)
  | buildAck | tick | read => exact ⟨(List.append_nil _).symm, rfl⟩
  | buildData payload window =>
      rcases buildData_cases connection payload window with ⟨-, heq⟩ | ⟨-, -, segment, -, heq⟩ <;>
        simp [TcpHistory.record, TcpOp.built, heq, TcpHistory.send]
  | buildFin window =>
      rcases buildFin_cases connection window with ⟨-, -, heq⟩ | ⟨_, -, segment, -, heq⟩ <;>
        simp [TcpHistory.record, TcpOp.built, heq, TcpHistory.send]

/-- What has been written or closed and is not recorded as outstanding has arrived. -/
structure TcpEndpoint.Covered (endpoint peer : TcpEndpoint) (base : BitVec 32) : Prop where
  numbers : ∀ i < endpoint.written.length + endpoint.closed.toNat,
    base + BitVec.ofNat 32 i ∉ endpoint.world.history.unacked → i < peer.received
  fin : endpoint.world.history.finAcked = true →
    endpoint.closed = true ∧ endpoint.written.length < peer.received

section Covered

variable {endpoint peer : TcpEndpoint} {base : BitVec 32}

/-- A sequence number that was written lies in a segment that was built for it. -/
theorem TcpSegment.mem_sequenceNumbers {segment : TcpSegment} {n i : ℕ}
    (hseq : segment.sequenceNumber = base + BitVec.ofNat 32 n) (hle : n ≤ i)
    (hlt : i < n + segment.sequenceLength) :
    base + BitVec.ofNat 32 i ∈ segment.sequenceNumbers := by
  refine List.mem_map.2 ⟨i - n, List.mem_range.2 (by omega), ?_⟩
  rw [hseq, SerialNumber.add_ofNat_add, Nat.add_sub_cancel' hle]

/-- A call of the writer that is not about an incoming segment. -/
theorem TcpEndpoint.Covered.build (h : endpoint.Covered peer base)
    (hsends : endpoint.SendsParts base) {op : TcpOp} (hop : ∀ segment, op ≠ .onSegment segment)
    (hsyn : ∀ window, op ≠ .buildSyn window) : (endpoint.step op).Covered peer base := by
  obtain ⟨hunacked, hfinAcked⟩ :=
    endpoint.world.history.record_unacked endpoint.world.connection hop hsyn
  have hemission := op.emission hsends.closing hsyn
  have hext := hemission.extends
  refine ⟨fun i hi hnot => ?_, fun hacked => ?_⟩
  · rw [TcpEndpoint.step_world, TcpWorld.step_history, hunacked, List.mem_append, not_or] at hnot
    cases hemission with
    | again _ fin _ _ _ _ writes =>
        rw [fin, TcpEndpoint.step_written_of_nil writes] at hi
        exact h.numbers i hi hnot.1
    | @data segment payload open_ stays carries _ _ built writes =>
        by_contra hlt
        rw [stays, TcpEndpoint.step_written, writes, List.length_append] at hi
        rw [built] at hnot
        have hold : ¬i < endpoint.written.length + endpoint.closed.toNat :=
          fun hi => hlt (h.numbers i hi hnot.1)
        have hlen : segment.sequenceLength = payload.length := carries.sequenceLength
        exact hnot.2 (TcpSegment.mem_sequenceNumbers (carries.sequenceNumber_eq.trans hsends.next)
          (Nat.not_lt.1 hold) (by rw [open_, hlen]; exact hi))
    | @fin segment state open_ closes carries _ _ built writes =>
        by_contra hlt
        rw [closes, TcpEndpoint.step_written_of_nil writes] at hi
        rw [built] at hnot
        have hold : ¬i < endpoint.written.length + endpoint.closed.toNat :=
          fun hi => hlt (h.numbers i hi hnot.1)
        have hlen : segment.sequenceLength = 1 := carries.sequenceLength
        exact hnot.2 (TcpSegment.mem_sequenceNumbers (carries.sequenceNumber_eq.trans hsends.next)
          (Nat.not_lt.1 hold) (by rw [open_, hlen]; exact hi))
  · rw [TcpEndpoint.step_world, TcpWorld.step_history, hfinAcked] at hacked
    obtain ⟨hclosed, hlt⟩ := h.fin hacked
    obtain ⟨hlater, hwritten⟩ := hext.closed hclosed
    exact ⟨hlater, hwritten ▸ hlt⟩

/-- **An acknowledgment arrives.** -/
theorem TcpEndpoint.Covered.onSegment (h : endpoint.Covered peer base)
    (hsends : endpoint.SendsParts base) {segment : TcpSegment}
    (hacks : segment.AcksWithin base peer.received) (hpeer : peer.received < 2 ^ 31)
    (hlen : endpoint.written.length + 1 < 2 ^ 31) :
    (endpoint.step (.onSegment segment)).Covered peer base := by
  obtain ⟨k, hk, hnumber⟩ := hacks
  have hwritten : (endpoint.step (.onSegment segment)).written = endpoint.written :=
    TcpEndpoint.step_written_of_nil rfl
  have hclosed : (endpoint.step (.onSegment segment)).closed = endpoint.closed := by
    show (endpoint.world.history.record _ _).sent = endpoint.world.history.sent
    rw [TcpHistory.record_onSegment, TcpHistory.received_sent]
  -- a number that the acknowledgment covers lies below what the peer has received
  have hcovers : ∀ i ≤ endpoint.written.length,
      seqLt (base + BitVec.ofNat 32 i) segment.acknowledgmentNumber = true → i < peer.received := by
    intro i hi hlt
    rw [hnumber, seqLt_iff, SerialNumber.dist_offset (by omega) (by omega)] at hlt
    omega
  have hbool := endpoint.closed.toNat_le
  refine ⟨fun i hi hnot => ?_, fun hacked => ?_⟩
  · rw [hwritten, hclosed] at hi
    rw [TcpEndpoint.step_world, TcpWorld.unacked_onSegment] at hnot
    by_cases hmem : base + BitVec.ofNat 32 i ∈ endpoint.world.history.unacked
    · split_ifs at hnot
      · rw [List.mem_filter, not_and, Bool.not_eq_true', Bool.not_eq_false] at hnot
        exact hcovers i (by omega) (hnot hmem)
      · exact absurd hmem hnot
    · exact h.numbers i hi hmem
  · rw [hwritten, hclosed]
    rw [TcpEndpoint.step_world, TcpWorld.step_history, TcpHistory.record_onSegment,
      TcpHistory.received] at hacked
    by_cases hold : endpoint.world.history.finAcked = true
    · exact h.fin hold
    split_ifs at hacked with hby
    · rw [TcpHistory.acknowledge] at hacked
      have hany : endpoint.world.history.fin.any
          (fun fin => seqLt fin.payloadEnd segment.acknowledgmentNumber) = true :=
        (Bool.or_eq_true _ _ ▸ hacked).resolve_left hold
      cases hfin : endpoint.world.history.fin with
      | none =>
          rw [hfin] at hany
          exact absurd hany Bool.false_ne_true
      | some fin =>
          have hisClosed : endpoint.closed = true := by
            rw [TcpEndpoint.closed, TcpHistory.sent, hfin]
            rfl
          have hend := hsends.closing.finLast fin hfin
          rw [hsends.next, hisClosed, Bool.toNat_true, ← SerialNumber.add_ofNat_add] at hend
          rw [hfin, Option.any_some, add_right_cancel hend] at hany
          exact ⟨hisClosed, hcovers _ le_rfl hany⟩
    · exact absurd hacked hold

theorem TcpEndpoint.Covered.mono (h : endpoint.Covered peer base) {later : TcpEndpoint}
    (hgrows : peer.received ≤ later.received) : endpoint.Covered later base :=
  ⟨fun i hi hnot => (h.numbers i hi hnot).trans_le hgrows, fun hacked =>
    ⟨(h.fin hacked).1, (h.fin hacked).2.trans_le hgrows⟩⟩

end Covered

/-! ### Runs -/

section Reachable

variable {near far : TcpHandshake} {link : TcpLink}

/-- What carries the induction over a run, for the stream from the near to the far side. -/
structure TcpLink.Tracks (near far : TcpHandshake) (stream : List UInt8)
    (hlen : stream.length + 1 < 2 ^ 31) (link : TcpLink) : Prop where
  receives : link.far.Receives (far.session stream hlen) link.near
  acknowledges : link.far.Acknowledges near.base
  covered : link.near.Covered link.far near.base

/-- The position `k` of the stream has the same sequence number on both sides, since the peer
counts from the initial sequence number that the SYN-ACK told it. -/
theorem TcpHandshake.Mirrors.sequenceAt (h : near.Mirrors far) {stream : List UInt8}
    {hlen : stream.length + 1 < 2 ^ 31} (k : ℕ) :
    (far.session stream hlen).sequenceAt k = near.base + BitVec.ofNat 32 k := by
  rw [TcpHandshake.base, ← h.peerSequence]
  rfl

theorem TcpEndpoint.Receives.received_le {stream : List UInt8} {hlen : stream.length + 1 < 2 ^ 31}
    {endpoint peer : TcpEndpoint} (h : endpoint.Receives (far.session stream hlen) peer) :
    endpoint.received ≤ stream.length + 1 := h.orderly.inOrder.add_fins_le

/-- A call on either side keeps both sides on the track of one stream. The stream is fixed to be
what will have been written in the end, so that a later write does not change what an earlier
segment carries. -/
theorem TcpLink.Tracks.step {stream : List UInt8} {hlen : stream.length + 1 < 2 ^ 31}
    (h : link.Tracks near far stream hlen) (hmirror : near.Mirrors far)
    (hsends : link.Sends near far) {op : TcpLinkOp} (hop : link.Allows op)
    (hw : link.near.written <+: stream)
    (hc : link.near.closed = true → stream = link.near.written) :
    (link.step op).Tracks near far stream hlen := by
  cases op with
  | near op =>
      have hsyn := TcpOp.Delivers.ne_buildSyn hop
      have hext := (op.emission hsends.near.closing hsyn).extends
      refine ⟨h.receives.of_extends hext, h.acknowledges, ?_⟩
      by_cases hseg : ∃ segment, op = .onSegment segment
      · obtain ⟨segment, rfl⟩ := hseg
        have hle := h.receives.received_le
        have hshort := hw.length_le
        exact h.covered.onSegment hsends.near (h.acknowledges.emitted segment hop) (by omega)
          (by omega)
      · exact h.covered.build hsends.near (fun segment heq => hseg ⟨segment, heq⟩) hsyn
  | far op =>
      have hsyn := TcpOp.Delivers.ne_buildSyn hop
      have hgrows : link.far.received ≤ (link.far.step op).received := by
        refine TcpEndpoint.received_le_step h.receives.orderly.bounded hsyn fun segment heq => ?_
        subst heq
        exact (hsends.near.emitted segment hop).noRst
      refine ⟨h.receives.call hmirror.symm hsends.near hw hc hop, ?_, h.covered.mono hgrows⟩
      refine h.acknowledges.step hsends.far.closing ?_ hsyn hgrows
      exact h.receives.orderly.inOrder.next.trans (hmirror.sequenceAt _)

/-- After the handshake nothing is outstanding, nothing is acknowledged and nothing is in order.
-/
theorem TcpLink.start_tracks (near far : TcpHandshake) {stream : List UInt8}
    {hlen : stream.length + 1 < 2 ^ 31} :
    (TcpLink.start near far).Tracks near far stream hlen := by
  have hnear := near.start_opened
  have hclosed : near.start.closed = false := by
    rw [TcpEndpoint.closed, TcpHistory.sent, hnear.fin]
    rfl
  refine ⟨far.start_receives near, ⟨fun _ hmem => absurd hmem List.not_mem_nil, fun hhas => ?_⟩,
    fun i hi => ?_, fun hacked => ?_⟩
  · exact absurd (far.start_opened.unarmed.symm.trans hhas) Bool.false_ne_true
  · rw [TcpLink.start, hclosed] at hi
    exact absurd hi (Nat.not_lt_zero i)
  · exact absurd (hnear.finAcked.symm.trans hacked) Bool.false_ne_true

/-- The invariant in every reachable state, for the stream that is written by then; each state on
the way has a beginning of it. -/
theorem TcpLink.Reachable.tracks (h : link.Reachable near far) (hmirror : near.Mirrors far)
    (hlen : link.near.written.length + 1 < 2 ^ 31) :
    link.Tracks near far link.near.written hlen := by
  obtain ⟨ops, hops, rfl⟩ := h
  refine ((TcpLink.start_sends near far).le_last (fun _ _ => id) hops).run_invariant
    (I := TcpLink.Tracks near far _ hlen) (fun link op hinv hstep => ?_)
    (TcpLink.start_tracks near far)
  obtain ⟨⟨hop, hsends⟩, hlast⟩ := hstep
  exact hinv.step hmirror hsends hop hlast.near.written fun hc => (hlast.near.closed hc).2

/-- An endpoint that was established stays so in the record, whatever is called: only a second
SYN begins anew. -/
theorem TcpEndpoint.established_step {endpoint : TcpEndpoint} {op : TcpOp}
    (hsyn : ∀ window, op ≠ .buildSyn window) (h : endpoint.world.history.established = true) :
    (endpoint.step op).world.history.established = true := by
  by_cases hseg : ∃ segment, op = .onSegment segment
  · obtain ⟨segment, rfl⟩ := hseg
    rw [TcpEndpoint.step_world, TcpWorld.step_history, TcpHistory.record_onSegment,
      TcpHistory.received_established, h, Bool.true_or]
  · have hpeer := endpoint.world.history.record_peer endpoint.world.connection
      (fun segment heq => hseg ⟨segment, heq⟩) hsyn
    exact hpeer.2.trans h

/-- Both sides stay established. -/
theorem TcpLink.Reachable.established (h : link.Reachable near far) :
    link.near.world.history.established = true ∧ link.far.world.history.established = true := by
  obtain ⟨ops, hops, rfl⟩ := h
  refine hops.run_invariant (I := fun link : TcpLink =>
    link.near.world.history.established = true ∧ link.far.world.history.established = true)
    (fun link op hinv hop => ?_) ⟨?_, ?_⟩
  · cases op with
    | near op =>
        exact ⟨TcpEndpoint.established_step (TcpOp.Delivers.ne_buildSyn hop) hinv.1, hinv.2⟩
    | far op =>
        exact ⟨hinv.1, TcpEndpoint.established_step (TcpOp.Delivers.ne_buildSyn hop) hinv.2⟩
  · exact (near.session [] (by decide)).start_blank.established
  · exact (far.session [] (by decide)).start_blank.established

/-- What the history of the near side records as acknowledged, the far side has. -/
theorem TcpLink.Reachable.acknowledgedBy (h : link.Reachable near far)
    (hmirror : near.Mirrors far) (hlen : link.near.written.length + 1 < 2 ^ 31) :
    link.near.AcknowledgedBy link.far near.base := by
  have htracks := h.tracks hmirror hlen
  have hfrom := htracks.receives.receivesFrom
  refine ⟨fun i hi hnot => ?_, fun hacked => ?_⟩
  · have hlt := htracks.covered.numbers i (by omega) hnot
    unfold TcpEndpoint.received at hlt
    rcases hfrom.fin with hzero | ⟨-, -, hall⟩
    · omega
    · rwa [hall]
  · obtain ⟨hclosed, hlt⟩ := htracks.covered.fin hacked
    have hle := hfrom.bytes.length_le
    unfold TcpEndpoint.received at hlt
    rcases hfrom.fin with hzero | ⟨hone, -, hall⟩
    · omega
    · exact ⟨hclosed, hall, hone⟩

/-- A consumed FIN says that the whole stream of the peer is there. -/
theorem TcpEndpoint.ReceivesFrom.of_peer {endpoint peer : TcpEndpoint}
    (h : endpoint.ReceivesFrom peer) (hpeer : endpoint.world.history.peer = true) :
    endpoint.world.inOrder = peer.written ∧ peer.closed = true := by
  have hpos : 0 < endpoint.world.history.peerFins := of_decide_eq_true hpeer
  rcases h.fin with hzero | ⟨-, hclosed, hall⟩
  · omega
  · exact ⟨hall, hclosed⟩

/-- What each state promises, from what it means for the record of the calls: a state says which
of the two FINs were acknowledged or consumed, and these two facts say that the streams are
complete. -/
theorem TcpEndpoint.AcknowledgedBy.promises {endpoint peer : TcpEndpoint} {base : BitVec 32}
    (h : endpoint.AcknowledgedBy peer base) (hfrom : endpoint.ReceivesFrom peer)
    (hmeans : endpoint.world.history.Means endpoint.world.connection.state) :
    endpoint.Promises peer endpoint.world.connection.state := by
  revert hmeans
  cases endpoint.world.connection.state with
  | synSent | established | finWait1 | reset => exact fun _ => trivial
  | finWait2 => exact fun hmeans => (h.fin hmeans.2.1).2
  | closeWait | lastAck => exact fun hmeans => hfrom.of_peer hmeans.1
  | timeWait => exact fun hmeans => hfrom.of_peer hmeans.2
  | closed => exact fun hmeans => ⟨(h.fin hmeans.2.1).2, hfrom.of_peer hmeans.2.2⟩

end Reachable

/-- **Acknowledged is received.**  In every reachable state of a link each byte that one side no
longer records as outstanding is in order on the other side, and if it takes its FIN for
acknowledged then the other side has consumed it behind the whole stream.  So the closing states
of either side say what has become of both streams. -/
theorem link_acknowledged (near far : TcpHandshake) (hmirror : near.Mirrors far) (link : TcpLink)
    (h : link.Reachable near far) (hshort : link.Short) :
    (link.near.AcknowledgedBy link.far near.base ∧
        link.near.Promises link.far link.near.world.connection.state) ∧
      link.far.AcknowledgedBy link.near far.base ∧
        link.far.Promises link.near link.far.world.connection.state := by
  have hnear := h.acknowledgedBy hmirror hshort.1
  have hfar := h.swap.acknowledgedBy hmirror.symm hshort.2
  have hestablished := h.established
  have hsends := h.sends
  exact ⟨⟨hnear, hnear.promises (h.receives hmirror hshort.2).receivesFrom
      (hsends.near.closing.means hestablished.1)⟩,
    hfar, hfar.promises (h.swap.receives hmirror.symm hshort.1).receivesFrom
      (hsends.far.closing.means hestablished.2)⟩

theorem link_acknowledged_test :
    let link := run TcpLink.step (.start .test .testPeer) linkOps
    (link.near.AcknowledgedBy link.far TcpHandshake.test.base ∧
        link.near.Promises link.far link.near.world.connection.state) ∧
      link.far.AcknowledgedBy link.near TcpHandshake.testPeer.base ∧
        link.far.Promises link.near link.far.world.connection.state :=
  link_acknowledged .test .testPeer test_mirrors _ linkOps_reachable linkOps_short

end Netstack
