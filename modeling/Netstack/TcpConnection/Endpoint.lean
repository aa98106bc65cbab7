/-
# What a connection sends

`PeerSession.Honest` is what the receive side relies on: a segment carries what the
stream of its sender holds at its sequence number, and a FIN only at the end of it.
This file is the other half.  `TcpEndpoint` is a connection beside the bytes its user
has written to it and the segments its calls have emitted, first transmissions,
retransmissions and bare acknowledgments alike, and `emits_parts` says that each of them
is a part of what was written (`TcpSegment.PartOf`), whatever arrives in between.

The invariant is `TcpEndpoint.SendsParts`: `send_next` is the position behind what was
written, behind the FIN if one was built, and the remembered segment is a part as well.
That a FIN stays at the end rests on `TcpWorld.Closing`: in the states in which
`build_data` and `build_fin` are accepted no FIN has been sent.
-/

import Netstack.TcpConnection.HonestPeer
import Netstack.TcpConnection.Schedule

namespace Netstack

open Stream (Slice)
open Transition (run Along)

/-- A handshake whose SYN-ACK the connection took. -/
structure TcpHandshake where
  localPort : BitVec 16
  remotePort : BitVec 16
  initialSequence : BitVec 32
  window : BitVec 16
  synAck : TcpSegment
  synAck_payload : synAck.payload = []
  /-- `tcp_connection_on_segment` takes the SYN-ACK for the SYN that was built -/
  accepted : (tcpConnectionOnSegment (tcpConnectionBuildSyn
    (tcpConnectionInit localPort remotePort initialSequence) window).connection synAck).1 = 1

/-- The session of the handshake with a peer that is going to send `stream`. -/
def TcpHandshake.session (handshake : TcpHandshake) (stream : List UInt8)
    (h : stream.length + 1 < 2 ^ 31) : PeerSession :=
  { handshake with stream, stream_lt := h }

/-- The sequence number of the first byte that is written. -/
def TcpHandshake.base (handshake : TcpHandshake) : BitVec 32 := handshake.initialSequence + 1

/-- A connection, the bytes that `build_data` has accepted from its user and the segments that
its calls have emitted. -/
structure TcpEndpoint where
  world : TcpWorld
  written : List UInt8
  emitted : List TcpSegment

/-- The segment that a call writes to `*segment`. -/
def TcpOp.emits (connection : TcpConnection) : TcpOp → Option TcpSegment
  | .buildSyn window => (tcpConnectionBuildSyn connection window).segment
  | .onSegment _ => none
  | .buildAck window => tcpConnectionBuildAck connection window
  | .buildData payload window => (tcpConnectionBuildData connection payload window).segment
  | .buildFin window => (tcpConnectionBuildFin connection window).segment
  | .tick elapsedMs => (tcpConnectionTick connection elapsedMs).segment
  | .read _ => none

/-- The bytes that a call adds to what its user has written: the argument `payload` of
`tcp_connection_build_data` when it returns 0. -/
def TcpOp.writes (connection : TcpConnection) : TcpOp → List UInt8
  | .buildData payload window =>
    if (tcpConnectionBuildData connection payload window).result = 0 then payload else []
  | .buildSyn _ | .onSegment _ | .buildAck _ | .buildFin _ | .tick _ | .read _ => []

/-- One call. -/
def TcpEndpoint.step (endpoint : TcpEndpoint) (op : TcpOp) : TcpEndpoint where
  world := endpoint.world.step op
  written := endpoint.written ++ op.writes endpoint.world.connection
  emitted := endpoint.emitted ++ (op.emits endpoint.world.connection).toList

/-- The connection after the handshake, to which nothing has been written. -/
def TcpHandshake.start (handshake : TcpHandshake) : TcpEndpoint where
  world := run TcpWorld.step
    (.init handshake.localPort handshake.remotePort handshake.initialSequence)
    [.buildSyn handshake.window, .onSegment handshake.synAck]
  written := []
  emitted := []

/-- The FIN of the connection was built. -/
def TcpEndpoint.closed (endpoint : TcpEndpoint) : Bool := endpoint.world.history.sent

@[simp] theorem TcpEndpoint.step_world (endpoint : TcpEndpoint) (op : TcpOp) :
    (endpoint.step op).world = endpoint.world.step op := rfl

@[simp] theorem TcpEndpoint.step_written (endpoint : TcpEndpoint) (op : TcpOp) :
    (endpoint.step op).written = endpoint.written ++ op.writes endpoint.world.connection := rfl

@[simp] theorem TcpEndpoint.step_emitted (endpoint : TcpEndpoint) (op : TcpOp) :
    (endpoint.step op).emitted =
      endpoint.emitted ++ (op.emits endpoint.world.connection).toList := rfl

@[simp] theorem TcpHandshake.session_start (handshake : TcpHandshake) {stream : List UInt8}
    (h : stream.length + 1 < 2 ^ 31) :
    (handshake.session stream h).start = handshake.start.world := rfl

/-! ### Parts of what was written -/

/-- The segment carries what `written` holds at its sequence number, and a FIN only at the end
of it, once it is `closed`. -/
structure TcpSegment.PartOf (segment : TcpSegment) (base : BitVec 32) (written : List UInt8)
    (closed : Bool) : Prop where
  noRst : segment.hasFlag tcpFlagRst = false
  noSyn : segment.hasFlag tcpFlagSyn = false
  slice : ∃ offset, segment.sequenceNumber = base + BitVec.ofNat 32 offset ∧
    Slice written offset segment.payload ∧
    (segment.hasFlag tcpFlagFin = true →
      closed = true ∧ offset + segment.payload.length = written.length)

section PartOf

variable {segment : TcpSegment} {base : BitVec 32} {written later : List UInt8}
  {closed closed' : Bool}

/-- A part stays one when more is written and when the stream is closed. -/
theorem TcpSegment.PartOf.mono (h : segment.PartOf base written closed)
    (hw : written <+: later) (hc : closed = true → closed' = true ∧ later = written) :
    segment.PartOf base later closed' := by
  obtain ⟨offset, hseq, hslice, hfin⟩ := h.slice
  refine ⟨h.noRst, h.noSyn, offset, hseq, ?_, fun hflag => ?_⟩
  · exact List.IsPrefix.trans hslice (hw.drop offset)
  · obtain ⟨hclosed, hend⟩ := hfin hflag
    obtain ⟨hclosed', rfl⟩ := hc hclosed
    exact ⟨hclosed', hend⟩

/-- A segment that a builder cut off the end of what was written. -/
theorem TcpSegment.Carries.partOf {seq : BitVec 32} {flags : BitVec 8} {payload : List UInt8}
    (h : segment.Carries seq flags payload) {offset : ℕ}
    (hseq : seq = base + BitVec.ofNat 32 offset) (hslice : Slice written offset payload)
    (hrst : flags &&& tcpFlagRst = 0) (hsyn : flags &&& tcpFlagSyn = 0)
    (hfin : flags &&& tcpFlagFin = 0 ∨
      closed = true ∧ offset + payload.length = written.length) :
    segment.PartOf base written closed := by
  refine ⟨?_, ?_, offset, h.sequenceNumber_eq.trans hseq, ?_, fun hflag => ?_⟩
  · rw [TcpSegment.hasFlag, h.flags_eq, hrst]
    rfl
  · rw [TcpSegment.hasFlag, h.flags_eq, hsyn]
    rfl
  · rw [h.payload_eq]
    exact hslice
  · rw [h.payload_eq]
    refine hfin.resolve_left fun hnone => ?_
    rw [TcpSegment.hasFlag, h.flags_eq, hnone] at hflag
    exact Bool.false_ne_true hflag

/-- A part of a stream that is never written to again is honest. -/
theorem TcpSegment.PartOf.honest {handshake : TcpHandshake}
    (hbase : handshake.synAck.sequenceNumber + 1 = base) (h : segment.PartOf base written closed)
    (hlen : written.length + 1 < 2 ^ 31) : (handshake.session written hlen).Honest segment := by
  obtain ⟨offset, hseq, hslice, hfin⟩ := h.slice
  refine ⟨h.noRst, h.noSyn, offset, ?_, hslice, fun hflag => (hfin hflag).2⟩
  rw [hseq, ← hbase]
  rfl

end PartOf

theorem slice_nil (written : List UInt8) (offset : ℕ) : Slice written offset [] :=
  List.nil_prefix

/-- What is appended is the slice at the end. -/
theorem slice_append (written payload : List UInt8) :
    Slice (written ++ payload) written.length payload := by
  rw [Slice, List.drop_left]

/-! ### The invariant -/

/-- What carries the induction over a run: `send_next` is behind what was written, and what was
or can be sent is a part of it. -/
structure TcpEndpoint.SendsParts (endpoint : TcpEndpoint) (base : BitVec 32) : Prop where
  closing : endpoint.world.Closing
  next : endpoint.world.connection.sendNext =
    base + BitVec.ofNat 32 (endpoint.written.length + endpoint.closed.toNat)
  emitted : ∀ segment ∈ endpoint.emitted, segment.PartOf base endpoint.written endpoint.closed
  armed : endpoint.world.connection.hasRetransmitSegment = true →
    endpoint.world.connection.lastSegment.PartOf base endpoint.written endpoint.closed

/-- What was written is only added to, and after the FIN not even that. -/
structure TcpEndpoint.Extends (endpoint later : TcpEndpoint) : Prop where
  written : endpoint.written <+: later.written
  closed : endpoint.closed = true → later.closed = true ∧ later.written = endpoint.written

theorem TcpEndpoint.Extends.refl (endpoint : TcpEndpoint) : endpoint.Extends endpoint :=
  ⟨List.prefix_rfl, fun h => ⟨h, rfl⟩⟩

/-- What is written later comes behind what was written before. -/
theorem TcpEndpoint.Extends.trans {a b c : TcpEndpoint} (h : a.Extends b) (h' : b.Extends c) :
    a.Extends c := by
  refine ⟨h.written.trans h'.written, fun hclosed => ?_⟩
  obtain ⟨hb, heq⟩ := h.closed hclosed
  obtain ⟨hc, heq'⟩ := h'.closed hb
  exact ⟨hc, heq'.trans heq⟩

/-- What a call of an established session says to the peer: nothing or a bare acknowledgment
or the remembered segment once more, or a new piece of the stream, or the FIN. -/
inductive TcpOp.Emission (endpoint : TcpEndpoint) (op : TcpOp) : Prop
  | again (next : (op.effect endpoint.world.connection).sendNext =
        endpoint.world.connection.sendNext)
      (fin : (endpoint.step op).closed = endpoint.closed)
      (built : op.built endpoint.world.connection = none)
      (last : (op.effect endpoint.world.connection).lastSegment =
        endpoint.world.connection.lastSegment)
      (armed : (op.effect endpoint.world.connection).hasRetransmitSegment = true →
        endpoint.world.connection.hasRetransmitSegment = true)
      (emits : ∀ segment, op.emits endpoint.world.connection = some segment →
        segment.Carries endpoint.world.connection.sendNext tcpFlagAck [] ∨
          endpoint.world.connection.hasRetransmitSegment = true ∧
            segment = endpoint.world.connection.lastSegment)
      (writes : op.writes endpoint.world.connection = [])
  | data {segment : TcpSegment} {payload : List UInt8}
      (open_ : endpoint.closed = false) (stays : (endpoint.step op).closed = false)
      (carries : segment.Carries endpoint.world.connection.sendNext
        (tcpFlagPsh ||| tcpFlagAck) payload)
      (effect : op.effect endpoint.world.connection =
        endpoint.world.connection.sent segment .established)
      (emits : op.emits endpoint.world.connection = some segment)
      (built : op.built endpoint.world.connection = some segment)
      (writes : op.writes endpoint.world.connection = payload)
  | fin {segment : TcpSegment} {state : TcpConnectionState}
      (open_ : endpoint.closed = false) (closes : (endpoint.step op).closed = true)
      (carries : segment.Carries endpoint.world.connection.sendNext
        (tcpFlagFin ||| tcpFlagAck) [])
      (effect : op.effect endpoint.world.connection =
        endpoint.world.connection.sent segment state)
      (emits : op.emits endpoint.world.connection = some segment)
      (built : op.built endpoint.world.connection = some segment)
      (writes : op.writes endpoint.world.connection = [])

section Emission

variable {endpoint : TcpEndpoint}

/-- The calls that build nothing. -/
theorem TcpOp.Emission.of_quiet {op : TcpOp}
    (built : op.built endpoint.world.connection = none)
    (next : (op.effect endpoint.world.connection).sendNext = endpoint.world.connection.sendNext)
    (fin : (endpoint.world.history.record endpoint.world.connection op).fin =
      endpoint.world.history.fin) (hb : endpoint.world.connection.SlotsBounded)
    (emits : ∀ segment, op.emits endpoint.world.connection = some segment →
      segment.Carries endpoint.world.connection.sendNext tcpFlagAck [] ∨
        endpoint.world.connection.hasRetransmitSegment = true ∧
          segment = endpoint.world.connection.lastSegment)
    (writes : op.writes endpoint.world.connection = []) : op.Emission endpoint := by
  have hkeep : (op.effect endpoint.world.connection).lastSegment =
      endpoint.world.connection.lastSegment ∧
      ((op.effect endpoint.world.connection).hasRetransmitSegment = true →
        endpoint.world.connection.hasRetransmitSegment = true) := by
    rcases op.built_cases hb with hsome | ⟨-, hkeep⟩
    · exact absurd (built.symm.trans hsome) (by simp)
    · exact hkeep
  refine .again next ?_ built hkeep.1 hkeep.2 emits writes
  show (endpoint.world.history.record _ op).sent = endpoint.world.history.sent
  rw [TcpHistory.sent, fin, TcpHistory.sent]

/-- **What a call says**, after the handshake. -/
theorem TcpOp.emission (op : TcpOp) (hclosing : endpoint.world.Closing)
    (hop : ∀ window, op ≠ .buildSyn window) : op.Emission endpoint := by
  have hb := hclosing.bounded
  cases op with
  | buildSyn window => exact absurd rfl (hop window)
  | onSegment segment =>
      refine .of_quiet rfl (onSegment_spec segment hb).sendNext ?_ hb (fun _ h => by cases h) rfl
      rw [TcpHistory.record_onSegment, TcpHistory.received_fin]
  | buildAck window =>
      exact .of_quiet rfl rfl rfl hb (fun segment h => Or.inl (TcpSegment.carries_of_tcpBuild h))
        rfl
  | read bufferLen =>
      refine .of_quiet rfl ?_ rfl hb (fun _ h => by cases h) rfl
      rw [TcpOp.effect, read_eq]
  | tick elapsedMs =>
      refine .of_quiet rfl ?_ rfl hb (fun segment hsome => Or.inr ?_) rfl
      · rcases tick_connection endpoint.world.connection elapsedMs with ⟨_, _, _, heq⟩ | ⟨_, heq⟩ <;>
          rw [TcpOp.effect, heq] <;> rfl
      · rw [TcpOp.emits] at hsome
        rcases tick_cases endpoint.world.connection elapsedMs with
          ⟨-, heq⟩ | ⟨hhas, _, -, ⟨-, heq⟩ | ⟨-, -, heq⟩ | ⟨-, -, heq⟩⟩ <;>
          rw [heq] at hsome
        · cases hsome
        · cases hsome
        · cases hsome
        · exact ⟨hhas, (Option.some.inj hsome).symm⟩
  | buildData payload window =>
      rcases buildData_cases endpoint.world.connection payload window with
        ⟨-, heq⟩ | ⟨hstate, -, segment, hcarries, heq⟩
      · refine .of_quiet (by simp [TcpOp.built, heq]) (by simp [TcpOp.effect, heq])
          (by simp [TcpHistory.record, heq]) hb (fun segment hsome => ?_)
          (by simp [TcpOp.writes, heq])
        rw [TcpOp.emits, heq] at hsome
        cases hsome
      · obtain ⟨hopen, -⟩ := hclosing.sent_eq_false (Or.inl hstate)
        have heffect : (TcpOp.buildData payload window).effect endpoint.world.connection =
            endpoint.world.connection.sent segment .established := by rw [TcpOp.effect, heq]
        refine .data hopen ?_ hcarries heffect (by rw [TcpOp.emits, heq])
          (by rw [TcpOp.built, heq]) (by rw [TcpOp.writes, heq, if_pos rfl])
        simp only [TcpEndpoint.closed, TcpEndpoint.step_world, TcpWorld.step_history,
          TcpHistory.record, heq]
        exact hopen
  | buildFin window =>
      rcases buildFin_cases endpoint.world.connection window with
        ⟨-, -, heq⟩ | ⟨state, hstate, segment, hcarries, heq⟩
      · refine .of_quiet (by simp [TcpOp.built, heq]) (by simp [TcpOp.effect, heq])
          (by simp [TcpHistory.record, heq]) hb (fun segment hsome => ?_) rfl
        rw [TcpOp.emits, heq] at hsome
        cases hsome
      · obtain ⟨hopen, -⟩ := hclosing.sent_eq_false (hstate.imp And.left And.left)
        have heffect : (TcpOp.buildFin window).effect endpoint.world.connection =
            endpoint.world.connection.sent segment state := by rw [TcpOp.effect, heq]
        refine .fin hopen ?_ hcarries heffect (by rw [TcpOp.emits, heq])
          (by rw [TcpOp.built, heq]) rfl
        simp only [TcpEndpoint.closed, TcpEndpoint.step_world, TcpWorld.step_history,
          TcpHistory.record, heq]
        rfl

theorem TcpEndpoint.step_written_of_nil {op : TcpOp}
    (writes : op.writes endpoint.world.connection = []) :
    (endpoint.step op).written = endpoint.written := by
  rw [TcpEndpoint.step_written, writes, List.append_nil]

/-- A call extends what was written. -/
theorem TcpOp.Emission.extends {op : TcpOp} (h : op.Emission endpoint) :
    endpoint.Extends (endpoint.step op) := by
  refine ⟨List.prefix_append _ _, fun hclosed => ?_⟩
  cases h with
  | again _ fin _ _ _ _ writes =>
      exact ⟨fin.trans hclosed, TcpEndpoint.step_written_of_nil writes⟩
  | data open_ | fin open_ => exact absurd (open_.symm.trans hclosed) Bool.false_ne_true

/-- **One call sends parts of what was written.** -/
theorem TcpEndpoint.SendsParts.step {base : BitVec 32} (h : endpoint.SendsParts base) {op : TcpOp}
    (hop : ∀ window, op ≠ .buildSyn window) : (endpoint.step op).SendsParts base := by
  have hemission := op.emission h.closing hop
  have hext := hemission.extends
  -- what was a part before the call still is one
  have hkeep : ∀ segment : TcpSegment, segment.PartOf base endpoint.written endpoint.closed →
      segment.PartOf base (endpoint.step op).written (endpoint.step op).closed :=
    fun segment hpart => hpart.mono hext.written hext.closed
  have hemitted : ∀ part : TcpSegment, op.emits endpoint.world.connection = some part →
      part.PartOf base (endpoint.step op).written (endpoint.step op).closed →
      ∀ segment ∈ (endpoint.step op).emitted,
        segment.PartOf base (endpoint.step op).written (endpoint.step op).closed := by
    intro part hsome hpart segment hmem
    rw [TcpEndpoint.step_emitted, hsome, List.mem_append] at hmem
    rcases hmem with hold | hnew
    · exact hkeep segment (h.emitted segment hold)
    · obtain rfl := List.mem_singleton.1 hnew
      exact hpart
  cases hemission with
  | again next fin _ last armed emits writes =>
      have hwritten := TcpEndpoint.step_written_of_nil writes
      refine ⟨h.closing.step op, ?_, fun segment hmem => ?_, fun hhas => ?_⟩
      · rw [hwritten, fin, ← h.next]
        exact next
      · rw [TcpEndpoint.step_emitted, List.mem_append] at hmem
        rcases hmem with hold | hnew
        · exact hkeep segment (h.emitted segment hold)
        · rcases emits segment (Option.mem_toList.1 hnew) with hack | ⟨hhas, rfl⟩
          · refine hkeep segment (hack.partOf h.next (slice_nil _ _) ?_ ?_ (Or.inl ?_)) <;> decide
          · exact hkeep _ (h.armed hhas)
      · have hlast : (endpoint.step op).world.connection.lastSegment =
            endpoint.world.connection.lastSegment := last
        rw [hlast]
        exact hkeep _ (h.armed (armed hhas))
  | @data segment payload open_ stays carries effect emits _ writes =>
      have hnext : endpoint.world.connection.sendNext =
          base + BitVec.ofNat 32 endpoint.written.length := by
        rw [h.next, open_]
        rfl
      have hwritten := TcpEndpoint.step_written endpoint op
      rw [writes] at hwritten
      have hpart : segment.PartOf base (endpoint.step op).written (endpoint.step op).closed := by
        refine carries.partOf hnext ?_ (by decide) (by decide) (Or.inl (by decide))
        rw [hwritten]
        exact slice_append _ _
      refine ⟨h.closing.step op, ?_, hemitted segment emits hpart, fun _ => ?_⟩
      · have hlen : segment.sequenceLength = payload.length := carries.sequenceLength
        rw [stays, TcpEndpoint.step_world, TcpWorld.step_connection, effect, hwritten,
          List.length_append, TcpConnection.sent, hlen, hnext]
        exact SerialNumber.add_ofNat_add _ _ _
      · rw [TcpEndpoint.step_world, TcpWorld.step_connection, effect]
        exact hpart
  | @fin segment state open_ closes carries effect emits _ writes =>
      have hnext : endpoint.world.connection.sendNext =
          base + BitVec.ofNat 32 endpoint.written.length := by
        rw [h.next, open_]
        rfl
      have hwritten := TcpEndpoint.step_written_of_nil writes
      have hpart : segment.PartOf base (endpoint.step op).written (endpoint.step op).closed := by
        refine carries.partOf hnext (slice_nil _ _) (by decide) (by decide) (Or.inr ⟨closes, ?_⟩)
        rw [hwritten]
        rfl
      refine ⟨h.closing.step op, ?_, hemitted segment emits hpart, fun _ => ?_⟩
      · have hlen : segment.sequenceLength = 1 := carries.sequenceLength
        rw [closes, TcpEndpoint.step_world, TcpWorld.step_connection, effect, hwritten,
          TcpConnection.sent, hlen, hnext]
        exact SerialNumber.add_ofNat_add _ _ _
      · rw [TcpEndpoint.step_world, TcpWorld.step_connection, effect]
        exact hpart

end Emission

/-! ### Runs -/

/-- The send side behind the handshake: the SYN is acknowledged and nothing else was sent. -/
structure TcpHandshake.Opened (handshake : TcpHandshake) (world : TcpWorld) : Prop where
  closing : world.Closing
  state : world.connection.state = .established
  localPort : world.connection.localPort = handshake.localPort
  remotePort : world.connection.remotePort = handshake.remotePort
  unacknowledged : world.connection.sendUnacknowledged = handshake.base
  next : world.connection.sendNext = handshake.base
  unarmed : world.connection.hasRetransmitSegment = false
  fin : world.history.fin = none
  finAcked : world.history.finAcked = false
  unacked : world.history.unacked = []

/-- ACK processing leaves the ports alone, so that every segment of a session is built with the
same ones. -/
theorem TcpConnection.afterAck_ports (connection : TcpConnection) (segment : TcpSegment) :
    (connection.afterAck segment).localPort = connection.localPort ∧
      (connection.afterAck segment).remotePort = connection.remotePort := by
  rw [TcpConnection.afterAck_eq]
  split_ifs <;> exact ⟨rfl, rfl⟩

/-- The call that completes the handshake. -/
theorem OnSegment.opens {segment : TcpSegment} {connection last : TcpConnection} {result : ℤ}
    {n : ℕ} (h : OnSegment segment connection result n last) (hone : result = 1) :
    connection.acknowledgedBy segment = connection.acceptsAck segment ∧
      segment.hasFlag tcpFlagAck = true ∧ segment.acknowledgmentNumber = connection.sendNext ∧
      last = (connection.afterAck segment).opened segment := by
  cases h with
  | opened ports rst _ synAck number =>
      exact ⟨TcpConnection.acknowledgedBy_eq ports rst, TcpSegment.hasFlag_ack_of_isSynAck synAck,
        number, rfl⟩
  | misaddressed | aborted | unanswered | mismatched | ignored | refused | received =>
      exact absurd hone (by decide)

/-- The connection that is waiting for the SYN-ACK. -/
def TcpHandshake.waiting (handshake : TcpHandshake) : TcpWorld :=
  (TcpWorld.init handshake.localPort handshake.remotePort handshake.initialSequence).step
    (.buildSyn handshake.window)

/-- Its SYN is all that was sent. -/
theorem TcpHandshake.waiting_sent (handshake : TcpHandshake) :
    handshake.waiting.connection.localPort = handshake.localPort ∧
      handshake.waiting.connection.remotePort = handshake.remotePort ∧
      handshake.waiting.connection.sendUnacknowledged = handshake.initialSequence ∧
      handshake.waiting.connection.sendNext = handshake.base ∧
      handshake.waiting.history.fin = none ∧ handshake.waiting.history.finAcked = false ∧
      handshake.waiting.history.unacked = [handshake.initialSequence] := by
  rcases buildSyn_cases (tcpConnectionInit handshake.localPort handshake.remotePort
    handshake.initialSequence) handshake.window with ⟨hclosed, -⟩ | ⟨-, syn, hcarries, heq⟩
  · exact absurd rfl hclosed
  have hlen : syn.sequenceLength = 1 := hcarries.sequenceLength
  have hseq : syn.sequenceNumber = handshake.initialSequence := hcarries.sequenceNumber_eq
  unfold TcpHandshake.waiting
  simp only [TcpWorld.step, TcpWorld.init, TcpOp.effect, TcpHistory.record, heq,
    TcpConnection.sent, hlen]
  refine ⟨rfl, rfl, rfl, rfl, trivial, trivial, ?_⟩
  show [] ++ syn.sequenceNumbers = _
  rw [TcpSegment.sequenceNumbers, hlen, hseq]
  exact congrArg (fun x => [x]) (BitVec.add_zero _)

/-- **The handshake** leaves nothing outstanding and the sequence number behind its SYN. -/
theorem TcpHandshake.start_opened (handshake : TcpHandshake) :
    handshake.Opened handshake.start.world := by
  have hclosing : handshake.waiting.Closing := (TcpWorld.closing_init _ _ _).step _
  obtain ⟨hlocal, hremote, huna, hnext, hfin, hnotAcked, hunacked⟩ := handshake.waiting_sent
  have hcall := onSegment_spec handshake.synAck hclosing.bounded
  obtain ⟨hacked, hflag, hnumber, hlast⟩ := hcall.opens handshake.accepted
  have hlt : (handshake.base - handshake.initialSequence).toNat = 1 := by
    unfold TcpHandshake.base
    bv_omega
  -- the SYN-ACK acknowledges the SYN
  have haccepts : handshake.waiting.connection.acknowledgedBy handshake.synAck = true := by
    rw [hacked, hclosing.sendInv.acceptsAck_iff, hnumber, huna, hnext, hlt]
    exact ⟨hflag, Nat.one_pos, le_rfl⟩
  have hside : handshake.start.world.connection =
      (handshake.waiting.connection.afterAck handshake.synAck).opened handshake.synAck := hlast
  refine ⟨hclosing.step _, ?_, ?_, ?_, ?_, ?_, ?_, ?_, ?_, ?_⟩
  · rw [hside]
    rfl
  · rw [hside]
    exact (TcpConnection.afterAck_ports ..).1.trans hlocal
  · rw [hside]
    exact (TcpConnection.afterAck_ports ..).2.trans hremote
  · exact hcall.sendUnacknowledged.trans ((if_pos haccepts).trans (hnumber.trans hnext))
  · exact hcall.sendNext.trans hnext
  · rw [hside]
    rfl
  · show (handshake.waiting.history.record handshake.waiting.connection _).fin = none
    rw [TcpHistory.record_onSegment, TcpHistory.received_fin, hfin]
  · show (handshake.waiting.history.record handshake.waiting.connection _).finAcked = false
    rw [TcpHistory.record_onSegment, TcpHistory.received, if_pos haccepts, TcpHistory.acknowledge,
      hnotAcked, hfin]
    rfl
  · show (handshake.waiting.step (.onSegment handshake.synAck)).history.unacked = []
    rw [TcpWorld.unacked_onSegment, if_pos haccepts, hunacked, hnumber, hnext]
    have hbefore : seqLt handshake.initialSequence handshake.base = true := by
      have hdist := @SerialNumber.dist_offset 32 handshake.initialSequence 0 1 (by decide)
        (by decide)
      rw [BitVec.add_zero] at hdist
      rw [seqLt_iff]
      exact lt_of_eq_of_lt hdist (by decide)
    simp [hbefore]

/-- At the start nothing is written and nothing outstanding, and the only segments that were
emitted are of the handshake. -/
theorem TcpHandshake.start_sendsParts (handshake : TcpHandshake) :
    handshake.start.SendsParts handshake.base := by
  have h := handshake.start_opened
  have hclosed : handshake.start.closed = false := by
    rw [TcpEndpoint.closed, TcpHistory.sent, h.fin]
    rfl
  refine ⟨h.closing, ?_, fun _ hmem => absurd hmem List.not_mem_nil, fun hhas => ?_⟩
  · rw [h.next, hclosed]
    exact (BitVec.add_zero _).symm
  · exact absurd (h.unarmed.symm.trans hhas) Bool.false_ne_true

/-- The run lemma: without a second `build_syn` the invariant holds after all calls. -/
theorem TcpHandshake.sendsParts_run (handshake : TcpHandshake) (ops : List TcpOp)
    (h : ∀ op ∈ ops, ∀ window, op ≠ .buildSyn window) :
    (run TcpEndpoint.step handshake.start ops).SendsParts handshake.base := by
  have hops : Along TcpEndpoint.step (fun _ op => ∀ window, op ≠ .buildSyn window)
      handshake.start ops := Transition.along_of_forall h
  exact hops.run_invariant (I := fun endpoint : TcpEndpoint => endpoint.SendsParts handshake.base)
    (fun _ _ hinv hop => hinv.step hop) handshake.start_sendsParts

/-- **Whatever arrives, a connection sends parts of one stream.**  Every segment that the calls
of an established session emit carries what was written at its sequence number, and a FIN only
behind the last byte, after which nothing more was written. -/
theorem emits_parts (handshake : TcpHandshake) (ops : List TcpOp)
    (h : ∀ op ∈ ops, ∀ window, op ≠ .buildSyn window) :
    let endpoint := run TcpEndpoint.step handshake.start ops
    ∀ segment ∈ endpoint.emitted,
      segment.PartOf handshake.base endpoint.written endpoint.closed :=
  (handshake.sendsParts_run ops h).emitted

/-- The handshake of the tests. -/
def TcpHandshake.test : TcpHandshake := { PeerSession.test with }

/-- A write, its retransmission, another write over it and the FIN, while the peer sends
garbage. -/
def emissionOps : List TcpOp :=
  [.buildData [1, 2, 3] 64240, .onSegment (peerSegment 5 7 tcpFlagAck [9]), .tick 1000,
    .buildData [4] 64240, .buildFin 64240, .buildAck 64240]

theorem emits_parts_test :
    let endpoint := run TcpEndpoint.step TcpHandshake.test.start emissionOps
    ∀ segment ∈ endpoint.emitted,
      segment.PartOf TcpHandshake.test.base endpoint.written endpoint.closed := by
  refine emits_parts TcpHandshake.test emissionOps fun op hop window => ?_
  rintro rfl
  simp [emissionOps] at hop

end Netstack
