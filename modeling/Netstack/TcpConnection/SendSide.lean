/-
# The send side

The connection remembers one segment for retransmission, and the outstanding
sequence numbers are the end of that segment: `SendInv`.  Every signed
comparison of ACK processing is about numbers inside this window, of at most
`TCP_MAX_PAYLOAD_LEN`, so it decides what it is meant to decide
(`SendInv.acceptsAck_iff`).

`SendInv` holds in every state that any calls reach, in whatever order
(`sendInv_run`), and `sendSide_representation` spells it out in the comparisons of
the source.
-/

import Netstack.TcpConnection.Calls

namespace Netstack

open SerialNumber (dist InRange)
open Transition (run run_invariant)

/-- The outstanding sequence numbers are the end of the remembered segment. -/
structure SendInv (connection : TcpConnection) : Prop where
  window : (connection.sendNext - connection.sendUnacknowledged).toNat ≤ tcpMaxPayloadLen
  armed : connection.state ≠ .reset → (connection.hasRetransmitSegment = true ↔
    connection.sendUnacknowledged ≠ connection.sendNext)
  ends : connection.hasRetransmitSegment = true → connection.sendNext =
    connection.lastSegment.sequenceNumber + BitVec.ofNat 32 connection.lastSegment.sequenceLength
  begins : connection.hasRetransmitSegment = true → InRange connection.lastSegment.sequenceNumber
    connection.lastSegment.sequenceLength connection.sendUnacknowledged

/-- A segment has at most 65535 bytes and two flags that count, far less than half of the
sequence space. -/
theorem TcpSegment.sequenceLength_lt (segment : TcpSegment) : segment.sequenceLength < 65538 := by
  have hlen := segment.payload_length_lt
  have hsyn := (segment.hasFlag tcpFlagSyn).toNat_le
  have hfin := (segment.hasFlag tcpFlagFin).toNat_le
  unfold TcpSegment.sequenceLength
  omega

/-! ### ACK processing -/

/-- **What an accepted acknowledgment is**: its number is one of those behind
`send_unacknowledged` up to `send_next`. -/
theorem SendInv.acceptsAck_iff {connection : TcpConnection} (h : SendInv connection)
    (segment : TcpSegment) :
    connection.acceptsAck segment = true ↔ segment.hasFlag tcpFlagAck = true ∧
      0 < (segment.acknowledgmentNumber - connection.sendUnacknowledged).toNat ∧
      (segment.acknowledgmentNumber - connection.sendUnacknowledged).toNat ≤
        (connection.sendNext - connection.sendUnacknowledged).toNat := by
  have hwindow := h.window
  have hmax : tcpMaxPayloadLen = 65515 := rfl
  unfold TcpConnection.acceptsAck
  rw [Bool.and_eq_true, Bool.and_eq_true, seqGt_iff, seqLe_iff,
    SerialNumber.inWindow_iff_dist (by omega)]

/-- `send_unacknowledged` after ACK processing. -/
theorem TcpConnection.afterAck_sendUnacknowledged (connection : TcpConnection)
    (segment : TcpSegment) :
    (connection.afterAck segment).sendUnacknowledged =
      if connection.acceptsAck segment = true then segment.acknowledgmentNumber
      else connection.sendUnacknowledged := by
  rw [TcpConnection.afterAck_eq]
  split_ifs <;> rfl

/-- The timer after ACK processing: off when everything is acknowledged. -/
theorem TcpConnection.afterAck_hasRetransmitSegment (connection : TcpConnection)
    (segment : TcpSegment) :
    (connection.afterAck segment).hasRetransmitSegment =
      if connection.acceptsAck segment = true ∧
          segment.acknowledgmentNumber = connection.sendNext then false
      else connection.hasRetransmitSegment := by
  rw [TcpConnection.afterAck_eq]
  split_ifs <;> first | rfl | tauto

/-- After the number `send_next` was acknowledged nothing is outstanding, whether or
not the number was news. -/
theorem SendInv.afterAck_sendNext {connection : TcpConnection} (h : SendInv connection)
    {segment : TcpSegment} (hack : segment.hasFlag tcpFlagAck = true)
    (hnumber : segment.acknowledgmentNumber = connection.sendNext) :
    (connection.afterAck segment).sendUnacknowledged = connection.sendNext := by
  rw [TcpConnection.afterAck_sendUnacknowledged]
  split_ifs with haccepts
  · exact hnumber
  · rw [h.acceptsAck_iff, hnumber] at haccepts
    have hzero : (connection.sendNext - connection.sendUnacknowledged).toNat = 0 := by
      by_contra hne
      exact haccepts ⟨hack, by omega, le_rfl⟩
    exact (SerialNumber.toNat_sub_eq_zero.1 hzero).symm

/-- **ACK processing keeps the send side.** An acknowledgment that is not accepted changes
nothing. One that is lies between `send_unacknowledged` and `send_next`; there the number moves,
and the two cases differ in whether it reaches the end: then nothing is outstanding and the timer
is off, and otherwise what is left is an end of the last segment, which stays armed. -/
theorem SendInv.afterAck {connection : TcpConnection} (h : SendInv connection)
    (segment : TcpSegment) : SendInv (connection.afterAck segment) := by
  have hwindow := h.window
  have hmax : tcpMaxPayloadLen = 65515 := rfl
  cases haccepts : connection.acceptsAck segment with
  | false =>
      have hhas := connection.afterAck_hasRetransmitSegment segment
      have huna := connection.afterAck_sendUnacknowledged segment
      rw [haccepts, if_neg (by simp)] at hhas huna
      constructor
      · rw [huna, TcpConnection.afterAck_sendNext]
        exact hwindow
      · rw [huna, hhas, TcpConnection.afterAck_sendNext, TcpConnection.afterAck_state]
        exact h.armed
      · rw [hhas, TcpConnection.afterAck_sendNext, TcpConnection.afterAck_lastSegment]
        exact h.ends
      · rw [hhas, huna, TcpConnection.afterAck_lastSegment]
        exact h.begins
  | true =>
      obtain ⟨-, hpos, hle⟩ := (h.acceptsAck_iff segment).1 haccepts
      have hrest := SerialNumber.toNat_sub_sub hle
      have hne : connection.sendUnacknowledged ≠ connection.sendNext := by
        intro heq
        rw [heq, SerialNumber.toNat_sub_eq_zero.2 (rfl : connection.sendNext = _)] at hle
        rw [heq] at hpos
        omega
      have hhas := connection.afterAck_hasRetransmitSegment segment
      have huna := connection.afterAck_sendUnacknowledged segment
      rw [haccepts, if_pos rfl] at huna
      rw [haccepts] at hhas
      constructor
      · rw [huna, TcpConnection.afterAck_sendNext, hrest]
        omega
      · intro hstate
        rw [TcpConnection.afterAck_state] at hstate
        rw [huna, hhas, TcpConnection.afterAck_sendNext]
        split_ifs with hall
        · simp [hall.2]
        · simp only [true_and] at hall
          simp [(h.armed hstate).2 hne, hall]
      · intro hold
        rw [hhas] at hold
        split_ifs at hold with hall
        rw [TcpConnection.afterAck_sendNext, TcpConnection.afterAck_lastSegment]
        exact h.ends hold
      · intro hold
        rw [hhas] at hold
        split_ifs at hold with hall
        have hend := h.ends hold
        have hbegin := h.begins hold
        rw [huna, TcpConnection.afterAck_lastSegment]
        have hlen := connection.lastSegment.sequenceLength_lt
        -- the acknowledged number is still inside the segment, as it is not its end
        have hlast : segment.acknowledgmentNumber ≠ connection.sendNext := fun heq => hall ⟨rfl, heq⟩
        rw [hend] at hle hlast
        exact hbegin.advance (by omega) hle hlast

/-! ### The calls -/

/-- The state matters only for whether the connection was reset. -/
theorem SendInv.of_sendSide {connection next : TcpConnection} (h : SendInv connection)
    (hside : next.sendSide = connection.sendSide)
    (hstate : next.state ≠ .reset → connection.state ≠ .reset) : SendInv next := by
  have huna : next.sendUnacknowledged = connection.sendUnacknowledged :=
    congrArg TcpSendSide.sendUnacknowledged hside
  have hnext : next.sendNext = connection.sendNext := congrArg TcpSendSide.sendNext hside
  have hlast : next.lastSegment = connection.lastSegment := congrArg TcpSendSide.lastSegment hside
  have hhas : next.hasRetransmitSegment = connection.hasRetransmitSegment :=
    congrArg TcpSendSide.hasRetransmitSegment hside
  constructor
  · rw [hnext, huna]
    exact h.window
  · intro hne
    rw [hhas, huna, hnext]
    exact h.armed (hstate hne)
  · rw [hhas, hnext, hlast]
    exact h.ends
  · rw [hhas, hlast, huna]
    exact h.begins

/-- A builder leaves exactly its own segment outstanding. -/
theorem SendInv.sent {connection : TcpConnection} {segment : TcpSegment}
    (hseq : segment.sequenceNumber = connection.sendNext) (hpos : 0 < segment.sequenceLength)
    (hle : segment.sequenceLength ≤ tcpMaxPayloadLen) (state : TcpConnectionState) :
    SendInv (connection.sent segment state) := by
  have hmax : tcpMaxPayloadLen = 65515 := rfl
  have hwindow : (connection.sendNext + BitVec.ofNat 32 segment.sequenceLength -
      connection.sendNext).toNat = segment.sequenceLength := by bv_omega
  constructor
  · exact hwindow.trans_le hle
  · refine fun _ => ⟨fun _ heq => ?_, fun _ => rfl⟩
    have hzero := SerialNumber.toNat_sub_eq_zero.2 heq.symm
    have : segment.sequenceLength = 0 := hwindow.symm.trans hzero
    omega
  · exact fun _ => congrArg (· + _) hseq.symm
  · intro _
    show (connection.sendNext - segment.sequenceNumber).toNat < segment.sequenceLength
    rw [hseq, SerialNumber.toNat_sub_eq_zero.2 rfl]
    exact hpos

/-- The closing checks are passed with everything acknowledged; LAST-ACK leads to CLOSED and
turns the timer off, which the invariant asks for there. -/
theorem SendInv.finishClose {connection : TcpConnection} (h : SendInv connection)
    (hstate : connection.state ≠ .reset) : SendInv (finishClose connection) := by
  unfold Netstack.finishClose
  split_ifs with hwait hlast
  · exact h.of_sendSide rfl fun _ => hstate
  · refine ⟨h.window, fun _ => ⟨fun hhas => ?_, fun hne => absurd hlast.2 hne⟩,
      fun hhas => ?_, fun hhas => ?_⟩ <;> exact absurd hhas Bool.false_ne_true
  · exact h

/-- The handshake leaves nothing outstanding and no timer. -/
theorem SendInv.opened {connection : TcpConnection} (h : SendInv connection)
    (hall : connection.sendUnacknowledged = connection.sendNext) (segment : TcpSegment) :
    SendInv (connection.opened segment) := by
  refine ⟨h.window, fun _ => ⟨fun hhas => ?_, fun hne => absurd hall hne⟩,
    fun hhas => ?_, fun hhas => ?_⟩ <;> exact absurd hhas Bool.false_ne_true

/-- A SYN-ACK has the ACK flag, so that its acknowledgment was processed before the handshake is.
-/
theorem TcpSegment.hasFlag_ack_of_isSynAck {segment : TcpSegment} (h : segment.isSynAck = true) :
    segment.hasFlag tcpFlagAck = true := by
  rw [TcpSegment.isSynAck, beq_iff_eq] at h
  rw [TcpSegment.hasFlag, bne_iff_ne]
  intro hzero
  have hand : tcpFlagAck = segment.flags &&& tcpFlagAck := by
    have := congrArg (· &&& tcpFlagAck) h
    simp only [BitVec.and_assoc] at this
    exact this.symm
  rw [hzero] at hand
  exact absurd hand (by decide)

/-- A FIN does not reset a connection. -/
theorem TcpConnectionState.receives_onPeerFin {state : TcpConnectionState}
    (h : state.receives = true) (n : ℕ) :
    TcpConnectionState.onPeerFin^[n] state ≠ .reset := by
  rcases Nat.eq_zero_or_pos n with rfl | hn
  · rintro rfl
    exact absurd h Bool.false_ne_true
  · rw [TcpConnectionState.iterate_onPeerFin state hn]
    cases state <;> simp_all [TcpConnectionState.onPeerFin, TcpConnectionState.receives]

theorem TcpConnectionState.ne_reset_of_receives {state : TcpConnectionState}
    (h : state.receives = true) : state ≠ .reset :=
  TcpConnectionState.receives_onPeerFin h 0

/-- An incoming segment keeps the send side in every branch: behind ACK processing only the state
changes, and a reset turns the timer off. -/
theorem OnSegment.sendInv {segment : TcpSegment} {connection last : TcpConnection} {result : ℤ}
    {n : ℕ} (h : OnSegment segment connection result n last) (hinv : SendInv connection) :
    SendInv last := by
  have hack := hinv.afterAck segment
  cases h with
  | misaddressed => exact hinv
  | aborted =>
      refine ⟨hinv.window, fun hstate => absurd rfl hstate, fun hhas => ?_, fun hhas => ?_⟩ <;>
        exact absurd hhas Bool.false_ne_true
  | unanswered | mismatched | ignored => exact hack
  | opened _ _ _ synAck number =>
      refine hack.opened ?_ segment
      rw [hinv.afterAck_sendNext (TcpSegment.hasFlag_ack_of_isSynAck synAck) number,
        TcpConnection.afterAck_sendNext]
  | refused _ _ receives payload =>
      refine hack.of_sendSide payload.path.sendSide fun _ => ?_
      rw [TcpConnection.afterAck_state]
      exact TcpConnectionState.ne_reset_of_receives receives
  | received _ _ receives payload =>
      have hstate := payload.received_path.state
      rw [TcpConnection.afterAck_state] at hstate
      refine SendInv.finishClose (hack.of_sendSide payload.received_path.sendSide fun _ => ?_) ?_
      · rw [TcpConnection.afterAck_state]
        exact TcpConnectionState.ne_reset_of_receives receives
      · rw [hstate]
        exact TcpConnectionState.receives_onPeerFin receives _

/-! ### Sending -/

/-- The call is a builder's and the builder accepts it. -/
def TcpOp.sends (connection : TcpConnection) : TcpOp → Prop
  | .buildSyn _ => connection.state = .closed
  | .buildData payload _ =>
    connection.state = .established ∧ payload ≠ [] ∧ payload.length ≤ tcpMaxPayloadLen
  | .buildFin _ => connection.state = .established ∨ connection.state = .closeWait
  | .onSegment _ | .buildAck _ | .tick _ | .read _ => False

/-- **What an accepted builder call does**, whichever of the three it is. -/
theorem TcpOp.effect_of_sends {op : TcpOp} {connection : TcpConnection}
    (h : op.sends connection) :
    ∃ (segment : TcpSegment) (state : TcpConnectionState), state ≠ .reset ∧
      segment.sequenceNumber = connection.sendNext ∧ 0 < segment.sequenceLength ∧
      segment.sequenceLength ≤ tcpMaxPayloadLen ∧
      op.effect connection = connection.sent segment state ∧
      ∀ history : TcpHistory, (history.record connection op).unacked =
        history.unacked ++ segment.sequenceNumbers := by
  cases op with
  | buildSyn window =>
      rcases buildSyn_cases connection window with ⟨hne, -⟩ | ⟨-, segment, hcarries, heq⟩
      · exact absurd h hne
      · have hlen : segment.sequenceLength = 1 := hcarries.sequenceLength
        refine ⟨segment, .synSent, by decide, hcarries.sequenceNumber_eq, by omega,
          by rw [hlen]; decide, ?_, fun history => ?_⟩
        · rw [TcpOp.effect, heq]
        · rw [TcpHistory.record, heq]
          rfl
  | buildData payload window =>
      rcases buildData_cases connection payload window with
        ⟨hne, -⟩ | ⟨-, hne, segment, hcarries, heq⟩
      · exact absurd h hne
      · have hlen : segment.sequenceLength = payload.length := hcarries.sequenceLength
        have hpos := List.length_pos_iff.2 hne
        refine ⟨segment, .established, by decide, hcarries.sequenceNumber_eq, by omega,
          by rw [hlen]; exact h.2.2, ?_, fun history => ?_⟩
        · rw [TcpOp.effect, heq]
        · rw [TcpHistory.record, heq]
          rfl
  | buildFin window =>
      rcases buildFin_cases connection window with
        ⟨he, hc, -⟩ | ⟨state, hstate, segment, hcarries, heq⟩
      · exact absurd h (not_or.2 ⟨he, hc⟩)
      · have hlen : segment.sequenceLength = 1 := hcarries.sequenceLength
        refine ⟨segment, state, ?_, hcarries.sequenceNumber_eq, by omega,
          by rw [hlen]; decide, ?_, fun history => ?_⟩
        · rcases hstate with ⟨-, rfl⟩ | ⟨-, rfl⟩ <;> decide
        · rw [TcpOp.effect, heq]
        · rw [TcpHistory.record, heq]
          rfl
  | onSegment | buildAck | tick | read => exact absurd h id

/-- **What the other calls leave alone.**  Neither a refused builder, nor `build_ack`,
nor the timer, nor the reader moves the send window; only the timer's last
expiry clears `has_retransmit_segment`, and then the state is RESET. -/
theorem TcpOp.effect_of_not_sends {op : TcpOp} {connection : TcpConnection}
    (h : ¬op.sends connection) (hop : ∀ segment, op ≠ .onSegment segment) :
    let next := op.effect connection
    next.sendUnacknowledged = connection.sendUnacknowledged ∧
      next.sendNext = connection.sendNext ∧ next.lastSegment = connection.lastSegment ∧
      (next.state = connection.state ∧
          next.hasRetransmitSegment = connection.hasRetransmitSegment ∨
        next.state = .reset ∧ next.hasRetransmitSegment = false) ∧
      ∀ history : TcpHistory, (history.record connection op).unacked = history.unacked := by
  intro next
  cases op with
  | buildSyn window =>
      rcases buildSyn_cases connection window with ⟨-, heq⟩ | ⟨hstate, -⟩
      · simp [next, TcpOp.effect, TcpHistory.record, heq]
      · exact absurd hstate h
  | onSegment segment => exact absurd rfl (hop segment)
  | buildAck | read => simp [next, TcpOp.effect, TcpHistory.record, read_eq]
  | buildData payload window =>
      rcases buildData_cases connection payload window with
        ⟨-, heq⟩ | ⟨hstate, hne, segment, hcarries, -⟩
      · simp [next, TcpOp.effect, TcpHistory.record, heq]
      · have hle := segment.payload_le
        rw [hcarries.payload_eq] at hle
        exact absurd ⟨hstate, hne, hle⟩ h
  | buildFin window =>
      rcases buildFin_cases connection window with ⟨-, -, heq⟩ | ⟨_, hstate, -⟩
      · simp [next, TcpOp.effect, TcpHistory.record, heq]
      · exact absurd (hstate.imp And.left And.left) h
  | tick elapsedMs =>
      rcases tick_connection connection elapsedMs with ⟨_, _, _, heq⟩ | ⟨_, heq⟩
      · simp [next, TcpOp.effect, TcpHistory.record, heq, TcpConnection.timed]
      · simp [next, TcpOp.effect, TcpHistory.record, heq, TcpConnection.givenUp]

/-- **One call keeps the send side in shape.** -/
theorem TcpOp.sendInv (op : TcpOp) {connection : TcpConnection}
    (hb : connection.SlotsBounded) (h : SendInv connection) : SendInv (op.effect connection) := by
  by_cases hop : ∃ segment, op = .onSegment segment
  · obtain ⟨segment, rfl⟩ := hop
    exact (onSegment_spec segment hb).sendInv h
  by_cases hsends : op.sends connection
  · obtain ⟨segment, state, -, hseq, hpos, hle, heq, -⟩ := TcpOp.effect_of_sends hsends
    rw [heq]
    exact SendInv.sent hseq hpos hle state
  · obtain ⟨huna, hnext, hlast, hcase, -⟩ :=
      TcpOp.effect_of_not_sends hsends (fun segment heq => hop ⟨segment, heq⟩)
    constructor
    · rw [huna, hnext]
      exact h.window
    · intro hne
      rcases hcase with ⟨hstate, hhas⟩ | ⟨hstate, -⟩
      · rw [hhas, huna, hnext]
        exact h.armed (hstate ▸ hne)
      · exact absurd hstate hne
    · intro hhas
      rcases hcase with ⟨-, heq⟩ | ⟨-, hoff⟩
      · rw [hnext, hlast]
        exact h.ends (heq ▸ hhas)
      · exact absurd (hoff.symm.trans hhas) Bool.false_ne_true
    · intro hhas
      rcases hcase with ⟨-, heq⟩ | ⟨-, hoff⟩
      · rw [huna, hlast]
        exact h.begins (heq ▸ hhas)
      · exact absurd (hoff.symm.trans hhas) Bool.false_ne_true

/-- A new connection has sent nothing. -/
theorem sendInv_init (localPort remotePort : BitVec 16) (initialSequence : BitVec 32) :
    SendInv (tcpConnectionInit localPort remotePort initialSequence) := by
  constructor
  · show (initialSequence - initialSequence).toNat ≤ tcpMaxPayloadLen
    rw [SerialNumber.toNat_sub_eq_zero.2 rfl]
    exact Nat.zero_le _
  · refine fun _ => ⟨fun hhas => absurd hhas Bool.false_ne_true, fun hne => absurd rfl hne⟩
  · exact fun hhas => absurd hhas Bool.false_ne_true
  · exact fun hhas => absurd hhas Bool.false_ne_true

/-- **The send side is in shape in every reachable state.** -/
theorem sendInv_run (localPort remotePort : BitVec 16) (initialSequence : BitVec 32)
    (ops : List TcpOp) :
    SendInv (run TcpWorld.step (TcpWorld.init localPort remotePort initialSequence)
      ops).connection :=
  (run_invariant (I := fun world : TcpWorld => world.connection.SlotsBounded ∧
      SendInv world.connection)
    (fun _ op h => ⟨op.slotsBounded h.1, op.sendInv h.1 h.2⟩) ops
    ⟨init_slotsBounded _ _ _, sendInv_init _ _ _⟩).2

/-- **The representation invariant of the send side**, in the comparisons of the
source, for every order of calls and every incoming segment. -/
theorem sendSide_representation (localPort remotePort : BitVec 16) (initialSequence : BitVec 32)
    (ops : List TcpOp) :
    let connection := (run TcpWorld.step (TcpWorld.init localPort remotePort initialSequence)
      ops).connection
    (connection.sendNext - connection.sendUnacknowledged).toNat ≤ 65515 ∧
      (connection.state ≠ .reset →
        (connection.hasRetransmitSegment = true ↔
          connection.sendUnacknowledged ≠ connection.sendNext) ∧
        (connection.hasRetransmitSegment = true →
          connection.lastSegment.sequenceNumber +
              BitVec.ofNat 32 connection.lastSegment.payload.length +
              BitVec.ofNat 32 (connection.lastSegment.hasFlag tcpFlagSyn).toNat +
              BitVec.ofNat 32 (connection.lastSegment.hasFlag tcpFlagFin).toNat =
            connection.sendNext ∧
          seqLe connection.lastSegment.sequenceNumber connection.sendUnacknowledged = true ∧
          seqLt connection.sendUnacknowledged connection.sendNext = true)) := by
  intro connection
  have h : SendInv connection := sendInv_run localPort remotePort initialSequence ops
  refine ⟨h.window, fun hstate => ⟨h.armed hstate, fun hhas => ?_⟩⟩
  have hlen := connection.lastSegment.sequenceLength_lt
  have hend := h.ends hhas
  have hbegin := h.begins hhas
  have hpos : 0 < connection.lastSegment.sequenceLength := by
    unfold SerialNumber.InRange at hbegin
    omega
  rw [SerialNumber.inRange_iff_dist hpos (by omega), ← hend] at hbegin
  refine ⟨?_, seqLe_iff.2 hbegin.1, seqLt_iff.2 ?_⟩
  · rw [SerialNumber.add_ofNat_add, SerialNumber.add_ofNat_add, ← Nat.add_assoc]
    exact hend.symm
  · have hback := SerialNumber.dist_comm (a := connection.sendUnacknowledged)
      (b := connection.sendNext) (by have := hbegin.2; omega)
    omega

end Netstack
