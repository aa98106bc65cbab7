/-
# The same segment twice

A segment that was accepted and comes again should change nothing.  What a connection
at rest makes of a segment is decided by `TcpConnection.Absorbs`: it holds nothing at
`receive_next`, what it holds beyond a gap is saved, and its FIN is behind or remembered
(`repeat_iff_absorbs`).  So the question is when the connection behind an accepted
segment absorbs it.

It does not in two cases, and `duplicate_iff` says that there is no third.  A SYN-ACK
occupies the sequence number before its payload, but the handshake takes no payload and
moves `receive_next` by one, so the second byte of the payload is next in order when
the SYN-ACK comes again (`duplicateSynAck_delivers`).  And a call that takes a pending
FIN which was due before it moves `receive_next` under a segment that was old or beyond
a gap a moment ago.
-/

import Netstack.TcpConnection.Stranded
import Netstack.TcpConnection.StreamEnd
import Netstack.TcpConnection.Timer

namespace Netstack

open SerialNumber (dist InRange)
open Transition (run run_invariant)

/-! ### A segment that brings nothing -/

/-- The segment brings nothing to the connection. -/
def TcpConnection.Absorbs (connection : TcpConnection) (segment : TcpSegment) : Prop :=
  ¬segment.Holds connection.receiveNext ∧
    (segment.IsFuture connection.receiveNext →
      segment.payload.length ≤ tcpReassemblySlotDataLen ∧ connection.buffers segment = true) ∧
    (segment.hasFlag tcpFlagFin = true → segment.payloadEnd ≠ connection.receiveNext ∧
      (seqGt segment.payloadEnd connection.receiveNext = true → connection.pendingFin = true ∧
        seqLt segment.payloadEnd connection.pendingFinSequence = false))

/-- The call accepts the segment and leaves the connection as it is. -/
def TcpConnection.Ignores (connection : TcpConnection) (segment : TcpSegment) : Prop :=
  0 ≤ (tcpConnectionOnSegment connection segment).1 ∧
    (tcpConnectionOnSegment connection segment).2 = connection

/-- A segment that is absorbed is old or already in a slot, and in both cases `process_payload`
returns 0 and leaves the connection alone. -/
theorem TcpConnection.Absorbs.processPayload {connection : TcpConnection} {segment : TcpSegment}
    (h : connection.Absorbs segment) :
    processPayload connection segment = (0, connection) := by
  rcases segment.place connection.receiveNext with hold | hfuture | hholds
  · exact (processPayload_of_isOld hold).1
  · obtain ⟨hshort, hbuffers⟩ := h.2.1 hfuture
    rw [(processPayload_of_isFuture hfuture).1]
    rcases bufferFuturePayload_cases connection hfuture.1 with
      ⟨-, hlong | ⟨hfresh, -⟩⟩ | ⟨heq, -, -⟩ | ⟨i, -, -, hfresh, -⟩
    · omega
    · exact absurd (hfresh.symm.trans hbuffers) Bool.false_ne_true
    · rw [heq]
    · exact absurd (hfresh.symm.trans hbuffers) Bool.false_ne_true
  · exact absurd hholds h.1

/-- The FIN of a segment that is absorbed is neither due nor nearer than the one that is pending.
-/
theorem TcpConnection.Absorbs.processFin {connection : TcpConnection} {segment : TcpSegment}
    (h : connection.Absorbs segment) : processFin connection segment = connection := by
  rcases processFin_cases connection segment with
    ⟨hdue, -⟩ | ⟨-, hflag, hgt, hfirst, -⟩ | ⟨-, heq, -⟩
  · rw [TcpConnection.finDue, Bool.and_eq_true, beq_iff_eq] at hdue
    exact absurd hdue.2 (h.2.2 hdue.1).1
  · obtain ⟨hpending, hnot⟩ := (h.2.2 hflag).2 hgt
    rcases hfirst with hnone | hlt
    · exact absurd (hnone.symm.trans hpending) Bool.false_ne_true
    · exact absurd (hnot.symm.trans hlt) Bool.false_ne_true
  · exact heq

/-- A FIN that is not next and does not change what is pending is behind or remembered. -/
theorem processFin_idle {connection : TcpConnection} {segment : TcpSegment}
    (hdue : connection.finDue segment = false)
    (hpending : (processFin connection segment).pendingFin = connection.pendingFin)
    (hsequence : (processFin connection segment).pendingFinSequence =
      connection.pendingFinSequence) :
    processFin connection segment = connection ∧ (segment.hasFlag tcpFlagFin = true →
      segment.payloadEnd ≠ connection.receiveNext ∧
        (seqGt segment.payloadEnd connection.receiveNext = true → connection.pendingFin = true ∧
          seqLt segment.payloadEnd connection.pendingFinSequence = false)) := by
  rcases processFin_cases connection segment with
    ⟨htrue, -⟩ | ⟨-, -, -, hfirst, heq⟩ | ⟨-, heq, hbehind⟩
  · exact absurd (hdue.symm.trans htrue) Bool.false_ne_true
  · rw [heq] at hpending hsequence
    rcases hfirst with hnone | hlt
    · exact absurd (hnone.symm.trans hpending.symm) Bool.false_ne_true
    · rw [← hsequence, seqLt_iff, SerialNumber.dist_self] at hlt
      exact absurd hlt (lt_irrefl 0)
  · refine ⟨heq, fun hflag => ⟨fun hend => ?_, hbehind hflag⟩⟩
    rw [TcpConnection.finDue, hflag, hend, beq_self_eq_true] at hdue
    exact absurd hdue.symm Bool.false_ne_true

/-- **An accepted payload that leaves the slots and the ready bytes alone** is old or saved
already, and changes nothing. -/
theorem Payload.absorbs {segment : TcpSegment} {connection mid : TcpConnection} {n : ℕ}
    (h : Payload segment connection 0 n mid) (hready : mid.receiveReady = connection.receiveReady)
    (hslots : mid.reassembly = connection.reassembly) :
    mid = connection ∧ ¬segment.Holds connection.receiveNext ∧
      (segment.IsFuture connection.receiveNext →
        segment.payload.length ≤ tcpReassemblySlotDataLen ∧ connection.buffers segment = true) := by
  cases h with
  | old place => exact ⟨rfl, place.not_holds, fun hfuture => absurd hfuture place.not_isFuture⟩
  | covered place short why => exact ⟨rfl, place.not_holds, fun _ => ⟨short, why⟩⟩
  | @stored i place short fresh free =>
      have hslot := congrFun hslots i
      rw [TcpConnection.store_reassembly, if_pos rfl] at hslot
      rw [← hslot] at free
      exact absurd free.symm Bool.false_ne_true
  | @promoted last place room steps settled =>
      obtain ⟨d, hd⟩ := Promoted.of_deliver room steps
      have hlt := hd.ready_length_lt place
      rw [consumePendingFin_receiveReady] at hready
      rw [hready] at hlt
      exact absurd hlt (lt_irrefl _)

/-- A connection at rest behind ACK processing: it receives, and the segment moves neither
its send side nor its closing. -/
structure TcpConnection.AtRest (connection : TcpConnection) (segment : TcpSegment) : Prop where
  ports : connection.addressedBy segment = true
  rst : segment.hasFlag tcpFlagRst = false
  receives : connection.state.receives = true
  ack : connection.afterAck segment = connection
  close : finishClose connection = connection

/-- At rest nothing is left of a call but its work on payload and FIN: the ports are right, there
is no RST, and ACK processing does not change the connection. -/
theorem TcpConnection.AtRest.onSegment {connection : TcpConnection} {segment : TcpSegment}
    (h : connection.AtRest segment) :
    tcpConnectionOnSegment connection segment =
      if (processPayload connection segment).1 ≠ 0 then (-2, (processPayload connection segment).2)
      else (0, finishClose (consumePendingFin
        (processFin (processPayload connection segment).2 segment))) := by
  have hstate := TcpConnectionState.ne_synSent_of_receives h.receives
  unfold tcpConnectionOnSegment
  rw [h.ports, h.rst, h.ack]
  simp only [Bool.not_true, Bool.false_eq_true, if_false, if_neg hstate, h.receives]

/-- **A connection at rest ignores exactly what it absorbs**, when no FIN is due. -/
theorem TcpConnection.AtRest.ignores_iff {connection : TcpConnection} {segment : TcpSegment}
    (h : connection.AtRest segment) (hb : connection.SlotsBounded) :
    connection.Ignores segment ↔
      connection.pendingFinDue = false ∧ connection.Absorbs segment := by
  rw [TcpConnection.Ignores, h.onSegment]
  constructor
  · have hpayload := processPayload_spec segment hb
    generalize payloadFins connection segment = n at hpayload
    rintro ⟨hresult, hsame⟩
    split_ifs at hresult hsame with hrefused
    · exact absurd hresult (by decide : ¬(0 : ℤ) ≤ -2)
    rw [ne_eq, not_not] at hrefused
    rw [hrefused] at hpayload
    generalize (processPayload connection segment).2 = mid at hpayload hsame
    have hready := congrArg TcpConnection.receiveReady hsame
    have hslots := congrArg TcpConnection.reassembly hsame
    have hside := congrArg TcpConnection.receiveSide hsame
    rw [finishClose_receiveReady, receiveReady_after_fins] at hready
    rw [finishClose_receiveSide] at hside
    have hslots : mid.reassembly = connection.reassembly := by
      have := congrArg TcpReceiveSide.reassembly hside
      rw [← processFin_reassembly mid segment, ← consumePendingFin_reassembly]
      exact this
    obtain ⟨rfl, hholds, hfuture⟩ := hpayload.absorbs hready hslots
    have hnext : (consumePendingFin (processFin mid segment)).receiveNext = mid.receiveNext :=
      congrArg TcpReceiveSide.receiveNext hside
    rw [receiveNext_after_fins] at hnext
    have hle := (mid.finDue segment).toNat_le
    have hle' := (processFin mid segment).pendingFinDue.toNat_le
    have hdirect : (mid.finDue segment).toNat = 0 := by bv_omega
    have hbehind : (processFin mid segment).pendingFinDue.toNat = 0 := by bv_omega
    rw [Bool.toNat_eq_zero] at hdirect hbehind
    have hnone : consumePendingFin (processFin mid segment) = processFin mid segment := by
      rw [consumePendingFin_eq, hbehind, if_neg Bool.false_ne_true]
    rw [hnone] at hside
    obtain ⟨hfin, hflag⟩ := processFin_idle hdirect (congrArg TcpReceiveSide.pendingFin hside)
      (congrArg TcpReceiveSide.pendingFinSequence hside)
    rw [hfin] at hbehind
    exact ⟨hbehind, hholds, hfuture, hflag⟩
  · rintro ⟨hdue, habs⟩
    have hconsume : consumePendingFin connection = connection := by
      rw [consumePendingFin_eq, hdue, if_neg Bool.false_ne_true]
    rw [habs.processPayload, if_neg (not_not_intro rfl), habs.processFin, hconsume, h.close]
    exact ⟨le_rfl, rfl⟩

/-! ### Behind the first call -/

/-- ACK processing has nothing to do for a segment it has processed already. -/
theorem TcpConnection.afterAck_again {connection next : TcpConnection} {segment : TcpSegment}
    (huna : next.sendUnacknowledged = (connection.afterAck segment).sendUnacknowledged)
    (hnext : next.sendNext = connection.sendNext)
    (hwindow : next.remoteWindow = segment.windowSize) : next.afterAck segment = next := by
  have hrefused : ¬next.acceptsAck segment = true := by
    rw [TcpConnection.afterAck_sendUnacknowledged] at huna
    unfold TcpConnection.acceptsAck
    rw [huna, hnext]
    split_ifs with haccepts
    · rw [Bool.and_eq_true, Bool.and_eq_true, seqGt_iff, SerialNumber.dist_self]
      exact fun h => absurd h.2.1 (lt_irrefl 0)
    · exact haccepts
  rw [TcpConnection.afterAck_eq, if_neg hrefused, ← hwindow]

theorem TcpConnection.afterAck_remoteWindow (connection : TcpConnection) (segment : TcpSegment) :
    (connection.afterAck segment).remoteWindow = segment.windowSize := rfl

/-- The closing checks are not passed twice in one call: FIN-WAIT-1 leads to FIN-WAIT-2, which is
neither of the two states that they look for. -/
theorem finishClose_idem (connection : TcpConnection) :
    finishClose (finishClose connection) = finishClose connection := by
  by_cases hwait : connection.state = .finWait1 ∧ connection.sendUnacknowledged = connection.sendNext
  · have hfirst : finishClose connection = { connection with state := .finWait2 } := if_pos hwait
    rw [hfirst]
    simp [finishClose]
  by_cases hlast : connection.state = .lastAck ∧ connection.sendUnacknowledged = connection.sendNext
  · have hfirst : finishClose connection =
        { connection with state := .closed, hasRetransmitSegment := false } :=
      (if_neg hwait).trans (if_pos hlast)
    rw [hfirst]
    simp [finishClose]
  · have hfirst : finishClose connection = connection := (if_neg hwait).trans (if_neg hlast)
    rw [hfirst, hfirst]

/-- The fields that the closing checks leave alone. -/
theorem finishClose_send (connection : TcpConnection) :
    (finishClose connection).sendUnacknowledged = connection.sendUnacknowledged ∧
      (finishClose connection).sendNext = connection.sendNext ∧
      (finishClose connection).remoteWindow = connection.remoteWindow ∧
      (finishClose connection).localPort = connection.localPort ∧
      (finishClose connection).remotePort = connection.remotePort := by
  unfold finishClose
  split_ifs <;> exact ⟨rfl, rfl, rfl, rfl, rfl⟩

/-- **A position not far behind the segment absorbs it.** -/
theorem TcpConnection.absorbs_of_passed {connection : TcpConnection} {segment : TcpSegment} {k : ℕ}
    (hnext : connection.receiveNext = segment.payloadEnd + BitVec.ofNat 32 k) (hk : k < 2 ^ 31)
    (hfin : segment.hasFlag tcpFlagFin = true → 0 < k) : connection.Absorbs segment := by
  have hdist : dist segment.payloadEnd connection.receiveNext = -k := by
    rw [hnext, SerialNumber.dist_add_right (by rw [SerialNumber.dist_self]; omega),
      SerialNumber.dist_self, zero_sub]
  have hold : segment.IsOld connection.receiveNext := Or.inr (by rw [seqLe_iff, hdist]; omega)
  refine ⟨hold.not_holds, fun hfuture => absurd hfuture hold.not_isFuture, fun hflag => ⟨?_, ?_⟩⟩
  · have hpos := hfin hflag
    rw [ne_eq, ← SerialNumber.dist_eq_zero, hdist]
    omega
  · intro hgt
    rw [seqGt_iff, hdist] at hgt
    omega

/-- The connection that an accepted segment leaves. -/
def TcpConnection.received (mid : TcpConnection) (segment : TcpSegment) : TcpConnection :=
  finishClose (consumePendingFin (processFin mid segment))

theorem TcpConnection.received_receiveSide (mid : TcpConnection) (segment : TcpSegment) :
    (mid.received segment).receiveSide =
      (consumePendingFin (processFin mid segment)).receiveSide := finishClose_receiveSide _

theorem TcpConnection.received_pendingFinDue (mid : TcpConnection) (segment : TcpSegment) :
    (mid.received segment).pendingFinDue = false := by
  rw [TcpConnection.pendingFinDue_congr (mid.received_receiveSide segment)]
  exact consumePendingFin_pendingFinDue _

/-- Behind an accepted segment the connection is at rest, unless it has stopped receiving. -/
theorem Payload.received_atRest {segment : TcpSegment} {connection mid : TcpConnection} {n : ℕ}
    (h : Payload segment (connection.afterAck segment) 0 n mid)
    (hports : connection.addressedBy segment = true) (hrst : segment.hasFlag tcpFlagRst = false) :
    (mid.received segment).addressedBy segment = true ∧
      (mid.received segment).afterAck segment = mid.received segment ∧
      ((mid.received segment).state.receives = true → (mid.received segment).AtRest segment) := by
  have hside := h.received_path.sendSide
  obtain ⟨huna, hnext, hwindow, hlocal, hremote⟩ :=
    finishClose_send (consumePendingFin (processFin mid segment))
  have haddressed : (mid.received segment).addressedBy segment = true := by
    rw [← connection.addressedBy_afterAck segment,
      ← TcpConnection.addressedBy_congr hside segment] at hports
    rw [← hports, TcpConnection.addressedBy, TcpConnection.addressedBy, TcpConnection.received,
      hlocal, hremote]
  have hagain : (mid.received segment).afterAck segment = mid.received segment := by
    refine @TcpConnection.afterAck_again connection _ segment ?_ ?_ ?_
    · exact huna.trans (congrArg TcpSendSide.sendUnacknowledged hside)
    · exact hnext.trans ((congrArg TcpSendSide.sendNext hside).trans
        (TcpConnection.afterAck_sendNext ..))
    · exact hwindow.trans ((congrArg TcpSendSide.remoteWindow hside).trans
        (connection.afterAck_remoteWindow segment))
  exact ⟨haddressed, hagain, fun hrec => ⟨haddressed, hrst, hrec, hagain, finishClose_idem _⟩⟩

/-! ### What the first call leaves for the second -/

/-- The segment has something for the connection one number behind `receive_next`: bytes
that are next there, its FIN, or bytes that are beyond a gap only from there on and that
no slot holds. -/
def TcpConnection.BringsBehind (connection : TcpConnection) (segment : TcpSegment) : Prop :=
  segment.Holds (connection.receiveNext + 1) ∨
    (segment.hasFlag tcpFlagFin = true ∧
      seqGe segment.payloadEnd (connection.receiveNext + 1) = true) ∨
    (segment.IsFuture (connection.receiveNext + 1) ∧ ¬segment.IsFuture connection.receiveNext ∧
      ¬(segment.payload.length ≤ tcpReassemblySlotDataLen ∧ connection.buffers segment = true))

/-- `range_already_buffered` is about the slots. -/
theorem TcpConnection.buffers_congr {connection next : TcpConnection}
    (h : next.reassembly = connection.reassembly) (segment : TcpSegment) :
    next.buffers segment = connection.buffers segment := by
  unfold TcpConnection.buffers rangeAlreadyBuffered
  rw [h]

/-- Whether a segment is absorbed is decided by the receive side. -/
theorem TcpConnection.absorbs_congr {connection next : TcpConnection}
    (h : next.receiveSide = connection.receiveSide) (segment : TcpSegment) :
    next.Absorbs segment ↔ connection.Absorbs segment := by
  unfold TcpConnection.Absorbs
  rw [TcpConnection.buffers_congr (congrArg TcpReceiveSide.reassembly h) segment,
    show next.receiveNext = connection.receiveNext from congrArg TcpReceiveSide.receiveNext h,
    show next.pendingFin = connection.pendingFin from congrArg TcpReceiveSide.pendingFin h,
    show next.pendingFinSequence = connection.pendingFinSequence from
      congrArg TcpReceiveSide.pendingFinSequence h]

/-- A saved segment is buffered. -/
theorem TcpConnection.store_buffers (connection : TcpConnection) (i : SlotIndex)
    (segment : TcpSegment) : (connection.store i segment).buffers segment = true := by
  unfold TcpConnection.buffers rangeAlreadyBuffered
  rw [List.any_eq_true]
  refine ⟨i, List.mem_finRange i, ?_⟩
  rw [TcpConnection.store_reassembly, if_pos rfl]
  simp [seqGe, seqLe, TcpReassemblySlot.slotEnd, TcpSegment.payloadEnd]

/-- An accepted payload that is not next in order: what it changes. -/
theorem Payload.not_next {segment : TcpSegment} {connection mid : TcpConnection} {n : ℕ}
    (h : Payload segment connection 0 n mid) (hnot : ¬segment.Holds connection.receiveNext) :
    mid.state = connection.state ∧ mid.receiveNext = connection.receiveNext ∧
      mid.pendingFin = connection.pendingFin ∧
      mid.pendingFinSequence = connection.pendingFinSequence ∧
      (segment.IsFuture connection.receiveNext →
        segment.payload.length ≤ tcpReassemblySlotDataLen ∧ mid.buffers segment = true) ∧
      (¬segment.IsFuture connection.receiveNext → mid = connection) := by
  cases h with
  | old place =>
      exact ⟨rfl, rfl, rfl, rfl, fun hfuture => absurd hfuture place.not_isFuture, fun _ => rfl⟩
  | covered place short why => exact ⟨rfl, rfl, rfl, rfl, fun _ => ⟨short, why⟩, fun _ => rfl⟩
  | stored place short fresh free =>
      exact ⟨rfl, rfl, rfl, rfl, fun _ => ⟨short, TcpConnection.store_buffers ..⟩,
        fun hnone => absurd place hnone⟩
  | promoted place => exact absurd place hnot

/-- Behind a segment that was next in order everything of it has been passed. -/
theorem Payload.next_absorbs {segment : TcpSegment} {connection mid : TcpConnection} {n : ℕ}
    (h : Payload segment connection 0 n mid) (hholds : segment.Holds connection.receiveNext) :
    (mid.received segment).Absorbs segment := by
  rw [TcpConnection.absorbs_congr (mid.received_receiveSide segment)]
  have hnext := receiveNext_after_fins mid segment
  have hle := (mid.finDue segment).toNat_le
  have hle' := (processFin mid segment).pendingFinDue.toNat_le
  cases h with
  | old place => exact absurd hholds place.not_holds
  | covered place => exact absurd hholds place.not_holds
  | stored place => exact absurd hholds place.not_holds
  | @promoted last place room steps settled =>
      obtain ⟨d, hd⟩ := Promoted.of_deliver room steps
      have hcap := hd.le_capacity
      have hlast := hd.receiveNext
      have hmid := consumePendingFin_receiveNext last
      have hone := last.pendingFinDue.toNat_le
      rw [TcpConnection.deliver_receiveNext place] at hlast
      rw [hlast, SerialNumber.add_ofNat_add] at hmid
      rw [hmid, SerialNumber.add_ofNat_add] at hnext
      refine TcpConnection.absorbs_of_passed hnext (by omega) fun hflag => ?_
      -- where nothing else was passed, the FIN of the segment was next
      by_contra hzero
      have hdue : (consumePendingFin last).finDue segment = true := by
        rw [TcpConnection.finDue, hflag, hmid, Bool.true_and, beq_iff_eq,
          show d + last.pendingFinDue.toNat = 0 by omega]
        exact (BitVec.add_zero _).symm
      rw [hdue, Bool.toNat_true] at hzero
      omega

/-- Without a FIN that was due, what is old, saved or remembered is absorbed. -/
theorem processFin_absorbs {connection : TcpConnection} {segment : TcpSegment}
    (hholds : ¬segment.Holds connection.receiveNext)
    (hfuture : segment.IsFuture connection.receiveNext →
      segment.payload.length ≤ tcpReassemblySlotDataLen ∧ connection.buffers segment = true)
    (hdirect : connection.finDue segment = false) :
    (processFin connection segment).Absorbs segment := by
  have hnext := processFin_receiveNext connection segment
  have hbuffers := TcpConnection.buffers_congr (processFin_reassembly connection segment) segment
  rw [hdirect, Bool.toNat_false, BitVec.add_zero] at hnext
  refine ⟨hnext ▸ hholds, ?_, fun hflag => ⟨fun hend => ?_, fun hgt => ?_⟩⟩
  · rw [hnext, hbuffers]
    exact hfuture
  · rw [hnext] at hend
    rw [TcpConnection.finDue, hflag, hend, beq_self_eq_true] at hdirect
    exact absurd hdirect.symm Bool.false_ne_true
  · rw [hnext] at hgt
    rcases processFin_cases connection segment with ⟨htrue, -⟩ | ⟨-, -, -, -, heq⟩ | ⟨-, heq, hkept⟩
    · exact absurd (hdirect.symm.trans htrue) Bool.false_ne_true
    · rw [heq]
      refine ⟨rfl, ?_⟩
      rw [← Bool.not_eq_true, seqLt_iff, SerialNumber.dist_self]
      exact lt_irrefl 0
    · rw [heq]
      exact hkept hflag hgt

/-- A FIN ahead is not remembered while another one is due. -/
theorem processFin_of_pendingFinDue {connection : TcpConnection} {segment : TcpSegment}
    (hdirect : connection.finDue segment = false) (hdue : connection.pendingFinDue = true) :
    processFin connection segment = connection := by
  rw [TcpConnection.pendingFinDue, Bool.and_eq_true, beq_iff_eq] at hdue
  rcases processFin_cases connection segment with
    ⟨htrue, -⟩ | ⟨-, -, hgt, hnone | hlt, -⟩ | ⟨-, heq, -⟩
  · exact absurd (hdirect.symm.trans htrue) Bool.false_ne_true
  · exact absurd (hnone.symm.trans hdue.1) Bool.false_ne_true
  · rw [seqGt_iff] at hgt
    rw [hdue.2, seqLt_iff] at hlt
    omega
  · exact heq

theorem seqGe_iff_eq_or_gt {a b : BitVec 32} :
    seqGe a b = true ↔ a = b ∨ seqGt a b = true := by
  rw [seqGe_iff, seqGt_iff, ← SerialNumber.dist_eq_zero]
  omega

/-- Behind a pending FIN that was taken, nothing must come one number further on. -/
theorem consumePendingFin_absorbs_iff {connection mid : TcpConnection} {segment : TcpSegment}
    (hnext : mid.receiveNext = connection.receiveNext) (hdue : mid.pendingFinDue = true)
    (hfuture : segment.IsFuture connection.receiveNext →
      segment.payload.length ≤ tcpReassemblySlotDataLen ∧ mid.buffers segment = true)
    (hsame : ¬segment.IsFuture connection.receiveNext → mid = connection) :
    (consumePendingFin mid).Absorbs segment ↔ ¬connection.BringsBehind segment := by
  have hat : (consumePendingFin mid).receiveNext = connection.receiveNext + 1 := by
    rw [consumePendingFin_eq, if_pos hdue, ← hnext]
  have hpending : (consumePendingFin mid).pendingFin = false := by
    rw [consumePendingFin_eq, if_pos hdue]
  have hbuffers := TcpConnection.buffers_congr (consumePendingFin_reassembly mid) segment
  unfold TcpConnection.Absorbs TcpConnection.BringsBehind
  rw [hat, hpending, hbuffers, seqGe_iff_eq_or_gt]
  generalize connection.receiveNext + 1 = behind
  by_cases hwas : segment.IsFuture connection.receiveNext
  · simp [hwas, hfuture hwas, not_or]
  · rw [hsame hwas]
    simp only [hwas, not_or, not_and, not_false_eq_true, forall_const, Bool.false_eq_true,
      false_and, imp_false, ne_eq, Classical.not_imp, not_not]
    exact and_congr_right fun _ => and_comm

/-- **What the connection behind an accepted segment makes of it.**  It absorbs it, unless
the call took a FIN that was due before it and the segment has something behind that. -/
theorem Payload.received_absorbs_iff {segment : TcpSegment} {connection mid : TcpConnection}
    {n : ℕ} (h : Payload segment connection 0 n mid) :
    (mid.received segment).Absorbs segment ↔
      (connection.pendingFinDue = true → ¬segment.Holds connection.receiveNext →
        connection.finDue segment = false → ¬connection.BringsBehind segment) := by
  by_cases hholds : segment.Holds connection.receiveNext
  · exact iff_of_true (h.next_absorbs hholds) fun _ hnot => absurd hholds hnot
  obtain ⟨-, hnext, hpending, hsequence, hfuture, hsame⟩ := h.not_next hholds
  have hdirect : mid.finDue segment = connection.finDue segment := by
    rw [TcpConnection.finDue, TcpConnection.finDue, hnext]
  have hdue : mid.pendingFinDue = connection.pendingFinDue := by
    rw [TcpConnection.pendingFinDue, TcpConnection.pendingFinDue, hnext, hpending, hsequence]
  rw [TcpConnection.absorbs_congr (mid.received_receiveSide segment)]
  cases hfin : connection.finDue segment with
  | true =>
      refine iff_of_true ?_ fun _ _ hno => Bool.noConfusion hno
      have hafter := receiveNext_after_fins mid segment
      have hle := (processFin mid segment).pendingFinDue.toNat_le
      rw [TcpConnection.finDue, Bool.and_eq_true, beq_iff_eq] at hfin
      rw [hdirect, TcpConnection.finDue, hfin.1, hfin.2, beq_self_eq_true, Bool.and_true,
        hnext, ← hfin.2] at hafter
      refine TcpConnection.absorbs_of_passed hafter ?_ fun _ => ?_
      · rw [Bool.toNat_true]
        omega
      · rw [Bool.toNat_true]
        omega
  | false =>
      rw [hfin] at hdirect
      cases hwas : connection.pendingFinDue with
      | false =>
          have hbehind := processFin_pendingFinDue hdirect (hdue.trans hwas)
          rw [consumePendingFin_eq, hbehind, if_neg Bool.false_ne_true]
          refine iff_of_true (processFin_absorbs (hnext ▸ hholds) (hnext ▸ hfuture) hdirect) ?_
          exact fun htrue => Bool.noConfusion htrue
      | true =>
          rw [processFin_of_pendingFinDue hdirect (hdue.trans hwas),
            consumePendingFin_absorbs_iff hnext (hdue.trans hwas) hfuture hsame]
          simp [hholds]

/-! ### The second call -/

/-- The segment completes the handshake. -/
def TcpConnection.Opens (connection : TcpConnection) (segment : TcpSegment) : Prop :=
  connection.addressedBy segment = true ∧ segment.hasFlag tcpFlagRst = false ∧
    connection.state = .synSent ∧ segment.isSynAck = true ∧
    segment.acknowledgmentNumber = connection.sendNext

/-- The call takes a pending FIN that was due before it, and goes on receiving. -/
def TcpConnection.TakesDueFin (connection : TcpConnection) (segment : TcpSegment) : Prop :=
  (connection.addressedBy segment = true ∧ segment.hasFlag tcpFlagRst = false ∧
      ¬connection.Refuses segment) ∧
    (connection.pendingFinDue = true ∧ ¬segment.Holds connection.receiveNext ∧
      connection.finDue segment = false) ∧
    (connection.state = .established ∨ connection.state = .closeWait ∨
      connection.state = .lastAck ∧ ¬(connection.sendUnacknowledged = connection.sendNext ∨
        connection.AcknowledgesAll segment))

/-- A segment that completes the handshake has at most one number behind its SYN, and no
FIN is pending there; and a segment whose call takes a FIN that was due before it has
nothing behind that FIN. -/
def TcpConnection.RepeatsSafely (connection : TcpConnection) (segment : TcpSegment) : Prop :=
  (connection.Opens segment →
      segment.payload.length + (segment.hasFlag tcpFlagFin).toNat ≤ 1 ∧
        ¬(connection.pendingFin = true ∧
          connection.pendingFinSequence = segment.sequenceNumber + 1)) ∧
    (connection.TakesDueFin segment → ¬connection.BringsBehind segment)

/-- A connection that takes no payload ignores what ACK processing has seen already. -/
theorem TcpConnection.ignores_of_not_receives {connection : TcpConnection} {segment : TcpSegment}
    (hports : connection.addressedBy segment = true) (hrst : segment.hasFlag tcpFlagRst = false)
    (hstate : connection.state ≠ .synSent) (hrec : connection.state.receives = false)
    (hack : connection.afterAck segment = connection) : connection.Ignores segment := by
  unfold TcpConnection.Ignores tcpConnectionOnSegment
  rw [hports, hrst, hack]
  simp [hstate, hrec]

/-- A connection in SYN-SENT ignores what is no SYN-ACK. -/
theorem TcpConnection.ignores_of_synSent {connection : TcpConnection} {segment : TcpSegment}
    (hports : connection.addressedBy segment = true) (hrst : segment.hasFlag tcpFlagRst = false)
    (hstate : connection.state = .synSent) (hsyn : segment.isSynAck = false)
    (hack : connection.afterAck segment = connection) : connection.Ignores segment := by
  rw [TcpSegment.isSynAck, beq_eq_false_iff_ne] at hsyn
  unfold TcpConnection.Ignores tcpConnectionOnSegment
  rw [hports, hrst, hack]
  simp [hstate, processHandshake, hsyn]

/-- An aborted connection ignores the RST. -/
theorem TcpConnection.aborted_ignores {connection : TcpConnection} {segment : TcpSegment}
    (hports : connection.addressedBy segment = true) (hrst : segment.hasFlag tcpFlagRst = true) :
    connection.aborted.Ignores segment := by
  have hsame : connection.aborted.addressedBy segment = true := hports
  unfold TcpConnection.Ignores tcpConnectionOnSegment
  rw [hsame, hrst]
  exact ⟨le_rfl, rfl⟩

/-- One number behind its own, a segment brings what it has behind its first number. -/
theorem TcpConnection.absorbs_behind_first {connection : TcpConnection} {segment : TcpSegment}
    (hnext : connection.receiveNext = segment.sequenceNumber + 1) :
    connection.Absorbs segment ↔
      segment.payload.length + (segment.hasFlag tcpFlagFin).toNat ≤ 1 := by
  have hlt := segment.payload_length_lt
  have hholds : segment.Holds connection.receiveNext ↔ 1 < segment.payload.length := by
    have hone : (connection.receiveNext - segment.sequenceNumber).toNat = 1 := by bv_omega
    rw [TcpSegment.Holds, SerialNumber.InRange, hone]
  have hbehind : dist segment.sequenceNumber connection.receiveNext = -1 := by
    rw [hnext]
    exact (SerialNumber.dist_add_right (n := 1) (by rw [SerialNumber.dist_self]; decide)).trans
      (by rw [SerialNumber.dist_self]; rfl)
  have hfuture : ¬segment.IsFuture connection.receiveNext := by
    rintro ⟨-, -, hgt⟩
    rw [seqGt_iff, hbehind] at hgt
    exact absurd hgt (by decide)
  have hend : dist segment.payloadEnd connection.receiveNext = -1 + segment.payload.length := by
    rw [TcpSegment.payloadEnd, SerialNumber.dist_add_left (by rw [hbehind]; omega), hbehind]
  unfold TcpConnection.Absorbs
  rw [hholds, ne_eq, ← SerialNumber.dist_eq_zero, seqGt_iff, hend]
  cases segment.hasFlag tcpFlagFin with
  | false =>
      simp only [Bool.false_eq_true, false_imp_iff, and_true, Bool.toNat_false]
      exact ⟨fun h => by omega, fun h => ⟨by omega, fun hf => absurd hf hfuture⟩⟩
  | true =>
      simp only [true_imp_iff, Bool.toNat_true]
      refine ⟨fun h => ?_, fun h => ⟨by omega, fun hf => absurd hf hfuture, by omega, by omega⟩⟩
      have hne := h.2.2.1
      omega

/-- Behind a pending FIN that was taken the connection receives in three cases. -/
theorem Payload.received_receives_iff {segment : TcpSegment} {connection mid : TcpConnection}
    {n : ℕ} (h : Payload segment connection 0 n mid) (hrec : connection.state.receives = true)
    (hdue : connection.pendingFinDue = true) (hholds : ¬segment.Holds connection.receiveNext)
    (hfin : connection.finDue segment = false) :
    (mid.received segment).state.receives = true ↔ connection.state = .established ∨
      connection.state = .closeWait ∨ connection.state = .lastAck ∧
        connection.sendUnacknowledged ≠ connection.sendNext := by
  obtain ⟨hstate, hnext, hpending, hsequence, -⟩ := h.not_next hholds
  have hside := h.path.sendSide
  have huna : mid.sendUnacknowledged = connection.sendUnacknowledged :=
    congrArg TcpSendSide.sendUnacknowledged hside
  have hsend : mid.sendNext = connection.sendNext := congrArg TcpSendSide.sendNext hside
  have hdirect : mid.finDue segment = false := by
    rw [← hfin, TcpConnection.finDue, TcpConnection.finDue, hnext]
  have hmid : mid.pendingFinDue = true := by
    rw [← hdue, TcpConnection.pendingFinDue, TcpConnection.pendingFinDue, hnext, hpending,
      hsequence]
  rw [TcpConnection.received, processFin_of_pendingFinDue hdirect hmid, consumePendingFin_eq,
    if_pos hmid]
  unfold finishClose
  dsimp only
  rw [hstate, huna, hsend]
  revert hrec
  cases connection.state <;> split_ifs <;>
    simp_all [TcpConnectionState.onPeerFin, TcpConnectionState.receives]

/-- The send window behind ACK processing is closed when nothing was outstanding or
everything is acknowledged. -/
theorem TcpConnection.afterAck_closes_iff {connection : TcpConnection} {segment : TcpSegment}
    (hports : connection.addressedBy segment = true) (hrst : segment.hasFlag tcpFlagRst = false) :
    (connection.afterAck segment).sendUnacknowledged = (connection.afterAck segment).sendNext ↔
      connection.sendUnacknowledged = connection.sendNext ∨
        connection.AcknowledgesAll segment := by
  rw [TcpConnection.afterAck_sendUnacknowledged, TcpConnection.afterAck_sendNext,
    TcpConnection.AcknowledgesAll, TcpConnection.acknowledgedBy_eq hports hrst]
  split_ifs with haccepts
  · refine ⟨fun heq => Or.inr ⟨haccepts, heq⟩, fun h => ?_⟩
    rcases h with hnone | hall
    · -- nothing can be accepted where nothing is outstanding
      unfold TcpConnection.acceptsAck at haccepts
      rw [Bool.and_eq_true, Bool.and_eq_true, seqGt_iff, seqLe_iff, hnone] at haccepts
      exact absurd haccepts.2.1 (not_lt.2 haccepts.2.2)
    · exact hall.2
  · exact ⟨Or.inl, fun h => h.resolve_right fun hall => haccepts hall.1⟩

/-- **The second call behind an accepted payload.** -/
theorem Payload.received_ignores_iff {segment : TcpSegment} {connection mid : TcpConnection}
    {n : ℕ} (h : Payload segment (connection.afterAck segment) 0 n mid)
    (hb : connection.SlotsBounded) (hports : connection.addressedBy segment = true)
    (hrst : segment.hasFlag tcpFlagRst = false) (hrec : connection.state.receives = true) :
    (mid.received segment).Ignores segment ↔
      (connection.TakesDueFin segment → ¬connection.BringsBehind segment) := by
  obtain ⟨hagain, hack, hrest⟩ := h.received_atRest hports hrst
  have habsorbs := h.received_absorbs_iff
  have haccepted : ¬connection.Refuses segment := by
    rw [← TcpConnection.refuses_afterAck, ← h.refused_iff (hb.afterAck segment)]
    decide
  have hfins : (connection.afterAck segment).finDue segment = connection.finDue segment := by
    rw [TcpConnection.finDue, TcpConnection.finDue, TcpConnection.afterAck_receiveNext]
  have hbrings : (connection.afterAck segment).BringsBehind segment ↔
      connection.BringsBehind segment := by
    unfold TcpConnection.BringsBehind
    rw [TcpConnection.buffers_afterAck, TcpConnection.afterAck_receiveNext]
  have hreceives := fun hdue hholds hfin => h.received_receives_iff
    (by rwa [TcpConnection.afterAck_state]) hdue hholds hfin
  simp only [TcpConnection.pendingFinDue_afterAck, TcpConnection.afterAck_receiveNext, hfins,
    hbrings, TcpConnection.afterAck_state, ne_eq,
    TcpConnection.afterAck_closes_iff hports hrst] at habsorbs hreceives
  by_cases hgoes : (mid.received segment).state.receives = true
  · have hslots : (mid.received segment).SlotsBounded :=
      finishClose_slotsBounded (h.received_path.slotsBounded (hb.afterAck segment))
    rw [(hrest hgoes).ignores_iff hslots, and_iff_right (mid.received_pendingFinDue segment),
      habsorbs]
    constructor
    · exact fun habs htakes => habs htakes.2.1.1 htakes.2.1.2.1 htakes.2.1.2.2
    · exact fun hcond hdue hholds hfin => hcond ⟨⟨hports, hrst, haccepted⟩, ⟨hdue, hholds, hfin⟩,
        (hreceives hdue hholds hfin).1 hgoes⟩
  · refine iff_of_true ?_ fun htakes => ?_
    · exact TcpConnection.ignores_of_not_receives hagain hrst (h.received_ne_synSent hrec)
        (by simpa using hgoes) hack
    · exact absurd ((hreceives htakes.2.1.1 htakes.2.1.2.1 htakes.2.1.2.2).2 htakes.2.2) hgoes

/-- **The second call behind a completed handshake.** -/
theorem TcpConnection.Opens.ignores_iff {connection : TcpConnection} {segment : TcpSegment}
    (h : connection.Opens segment) (hb : connection.SlotsBounded) :
    ((connection.afterAck segment).opened segment).Ignores segment ↔
      segment.payload.length + (segment.hasFlag tcpFlagFin).toNat ≤ 1 ∧
        ¬(connection.pendingFin = true ∧
          connection.pendingFinSequence = segment.sequenceNumber + 1) := by
  obtain ⟨hports, hrst, -, -, -⟩ := h
  have hagain : ((connection.afterAck segment).opened segment).addressedBy segment = true :=
    (connection.addressedBy_afterAck segment).trans hports
  have hack : ((connection.afterAck segment).opened segment).afterAck segment =
      (connection.afterAck segment).opened segment :=
    @TcpConnection.afterAck_again connection _ segment rfl
      (connection.afterAck_sendNext segment) rfl
  have hrest : ((connection.afterAck segment).opened segment).AtRest segment :=
    ⟨hagain, hrst, rfl, hack, by simp [finishClose, TcpConnection.opened]⟩
  have hslots : ((connection.afterAck segment).opened segment).SlotsBounded := hb.afterAck segment
  have hdue : ((connection.afterAck segment).opened segment).pendingFinDue = true ↔
      connection.pendingFin = true ∧
        connection.pendingFinSequence = segment.sequenceNumber + 1 := by
    rw [TcpConnection.pendingFinDue, Bool.and_eq_true, beq_iff_eq, TcpConnection.opened,
      TcpConnection.afterAck_pendingFin, TcpConnection.afterAck_pendingFinSequence]
  rw [hrest.ignores_iff hslots, TcpConnection.absorbs_behind_first rfl, ← hdue, Bool.not_eq_true,
    and_comm]

/-- The first call of the run of `duplicateSynAck_delivers`. -/
def dataSynAck : TcpSegment := peerSegment 9000 1001 (tcpFlagSyn ||| tcpFlagAck) [1, 2]

/-- **A SYN-ACK with two bytes**, when it comes again, delivers the second of them. -/
theorem duplicateSynAck_delivers :
    let connection := (run TcpWorld.step TcpWorld.test [.buildSyn 64240]).connection
    let first := tcpConnectionOnSegment connection dataSynAck
    ¬(0 ≤ first.1 → first.2.Ignores dataSynAck) := by
  intro connection first h
  have hsame := congrArg TcpConnection.receiveReady (h (by decide +kernel)).2
  exact absurd hsame (by decide +kernel)

/-- A FIN that is due is taken in the states that receive, and SYN-SENT is none of them. -/
theorem TcpConnection.TakesDueFin.ne_synSent {connection : TcpConnection} {segment : TcpSegment}
    (h : connection.TakesDueFin segment) : connection.state ≠ .synSent := by
  intro hstate
  have hwas := h.2.2
  rw [hstate] at hwas
  simp at hwas

/-- **Duplicate suppression, exactly.**  In every reachable state, an accepted segment that
comes again is accepted and changes nothing if and only if it repeats safely. -/
theorem duplicate_iff (localPort remotePort : BitVec 16) (initialSequence : BitVec 32)
    (ops : List TcpOp) (segment : TcpSegment) :
    let connection := (run TcpWorld.step (TcpWorld.init localPort remotePort initialSequence)
      ops).connection
    let first := tcpConnectionOnSegment connection segment
    (0 ≤ first.1 → 0 ≤ (tcpConnectionOnSegment first.2 segment).1 ∧
        (tcpConnectionOnSegment first.2 segment).2 = first.2) ↔
      connection.RepeatsSafely segment := by
  intro connection first
  have hb : connection.SlotsBounded := slotsBounded_run localPort remotePort initialSequence ops
  have hcall := onSegment_spec segment hb
  show (0 ≤ first.1 → first.2.Ignores segment) ↔ _
  change OnSegment segment connection first.1 _ first.2 at hcall
  generalize first.1 = result, onSegmentFins connection segment = n,
    first.2 = last at hcall ⊢
  clear first
  have hagain : (connection.afterAck segment).addressedBy segment = connection.addressedBy segment :=
    connection.addressedBy_afterAck segment
  have hack : (connection.afterAck segment).afterAck segment = connection.afterAck segment :=
    @TcpConnection.afterAck_again connection _ segment rfl (connection.afterAck_sendNext segment) rfl
  unfold TcpConnection.RepeatsSafely
  cases hcall with
  | misaddressed ports =>
      refine iff_of_true (fun h => absurd h (by decide)) ⟨fun hopens => ?_, fun htakes => ?_⟩
      · exact absurd (ports.symm.trans hopens.1) Bool.false_ne_true
      · exact absurd (ports.symm.trans htakes.1.1) Bool.false_ne_true
  | aborted ports rst =>
      refine iff_of_true (fun _ => TcpConnection.aborted_ignores ports rst)
        ⟨fun hopens => ?_, fun htakes => ?_⟩
      · exact absurd (hopens.2.1.symm.trans rst) Bool.false_ne_true
      · exact absurd (htakes.1.2.1.symm.trans rst) Bool.false_ne_true
  | unanswered ports rst state synAck =>
      refine iff_of_true (fun _ => TcpConnection.ignores_of_synSent (hagain.trans ports) rst
        ((connection.afterAck_state segment).trans state) synAck hack)
        ⟨fun hopens => ?_, fun htakes => ?_⟩
      · exact absurd (synAck.symm.trans hopens.2.2.2.1) Bool.false_ne_true
      · exact absurd state htakes.ne_synSent
  | mismatched ports rst state synAck number =>
      refine iff_of_true (fun h => absurd h (by decide)) ⟨fun hopens => ?_, fun htakes => ?_⟩
      · exact absurd hopens.2.2.2.2 number
      · exact absurd state htakes.ne_synSent
  | opened ports rst state synAck number =>
      have hopens : connection.Opens segment := ⟨ports, rst, state, synAck, number⟩
      have hnot : ¬connection.TakesDueFin segment := fun htakes => htakes.ne_synSent state
      rw [hopens.ignores_iff hb]
      simp [hopens, hnot]
  | ignored ports rst state receives =>
      refine iff_of_true (fun _ => TcpConnection.ignores_of_not_receives (hagain.trans ports) rst
        (by rwa [TcpConnection.afterAck_state]) (by rwa [TcpConnection.afterAck_state]) hack)
        ⟨fun hopens => absurd hopens.2.2.1 state, fun htakes => ?_⟩
      have hwas := htakes.2.2
      revert hwas receives
      cases connection.state <;> simp [TcpConnectionState.receives]
  | refused ports rst receives payload =>
      refine iff_of_true (fun h => absurd h (by decide)) ⟨fun hopens => ?_, fun htakes => ?_⟩
      · exact absurd hopens.2.2.1 (TcpConnectionState.ne_synSent_of_receives receives)
      · have hrefuses := (payload.refused_iff (hb.afterAck segment)).1 rfl
        exact absurd (TcpConnection.refuses_afterAck.1 hrefuses) htakes.1.2.2
  | received ports rst receives payload =>
      have hnot : ¬connection.Opens segment := fun hopens =>
        absurd hopens.2.2.1 (TcpConnectionState.ne_synSent_of_receives receives)
      have hiff := payload.received_ignores_iff hb ports rst receives
      simp only [hnot, false_imp_iff, true_and, le_refl, true_imp_iff]
      exact hiff

end Netstack
