/-
# A remembered FIN

A FIN ahead of a gap is remembered in `pending_fin_sequence`, to be consumed "once
receive_next reaches the FIN position".  `consume_pending_fin` tests this with `!=`,
and `receive_next` moves by whole segments: delivery that goes past the position
leaves the FIN pending for good (`overtakenFin_stuck`), and a later FIN behind it
is not remembered any more.

`along_finAhead` gives the condition under which a pending FIN stays ahead: what
`receive_next` can reach from a delivered segment does not lie beyond it, a new
handshake does not begin beyond a FIN left over from an earlier session, no second
FIN comes to the place of one that is due, and no reset connection was abandoned
right at its FIN.
-/

import Netstack.TcpConnection.StreamEnd

namespace Netstack

open Transition (run Along)

/-- If the segment is processed, then a FIN that is pending afterwards is ahead. -/
def TcpWorld.FinAhead (world : TcpWorld) : TcpOp → Prop
  | .onSegment segment =>
    (tcpConnectionOnSegment world.connection segment).1 = 0 →
      (tcpConnectionOnSegment world.connection segment).2.pendingFin = true →
        seqGt (tcpConnectionOnSegment world.connection segment).2.pendingFinSequence
          (tcpConnectionOnSegment world.connection segment).2.receiveNext = true
  | .buildSyn _ | .buildAck _ | .buildData _ _ | .buildFin _ | .tick _ | .read _ => True

instance (world : TcpWorld) : (op : TcpOp) → Decidable (world.FinAhead op)
  | .onSegment _ => inferInstanceAs (Decidable (_ → _ → _ = true))
  | .buildSyn _ | .buildAck _ | .buildData _ _ | .buildFin _ | .tick _ | .read _ =>
    inferInstanceAs (Decidable True)

/-- The segment moves `receive_next` at most up to the pending FIN. -/
structure TcpConnection.StopsAtFin (connection : TcpConnection) (segment : TcpSegment) : Prop where
  /-- a handshake begins no later than a FIN that is still pending -/
  opening : connection.state = .synSent → segment.isSynAck = true →
    segment.acknowledgmentNumber = connection.sendNext →
      seqGe connection.pendingFinSequence (segment.sequenceNumber + 1) = true
  /-- what can be delivered with the segment ends at the pending FIN -/
  reach : connection.state.receives = true → connection.Takes segment →
    ∀ y, connection.Reaches segment.payloadEnd y → seqGe connection.pendingFinSequence y = true
  /-- no second FIN comes to where the pending one is due -/
  single : connection.state.receives = true →
    connection.pendingFinSequence = connection.receiveNext →
      ¬(segment.hasFlag tcpFlagFin = true ∧ segment.payloadEnd = connection.receiveNext)
  /-- a reset connection was not abandoned right at the pending FIN -/
  abandoned : connection.state = .reset →
    connection.pendingFinSequence ≠ connection.receiveNext

/-- An incoming segment stops at the pending FIN. -/
def TcpWorld.StopsAtFin (world : TcpWorld) (op : TcpOp) : Prop :=
  ∀ segment, op = .onSegment segment → world.connection.addressedBy segment = true →
    segment.hasFlag tcpFlagRst = false → world.connection.pendingFin = true →
      world.connection.StopsAtFin segment

/-- **Overtaken.**  A FIN is announced at 9005, and then eight bytes from 9001 on are
delivered: `receive_next` is 9009, and the FIN is pending behind it. -/
theorem overtakenFin_stuck :
    ¬Along TcpWorld.step TcpWorld.FinAhead TcpWorld.test (establishConnection ++
      [.onSegment (peerSegment 9005 1001 (tcpFlagFin ||| tcpFlagAck) []),
        .onSegment (peerSegment 9001 1001 tcpFlagAck [1, 2, 3, 4, 5, 6, 7, 8])]) := by
  intro h
  obtain ⟨-, h⟩ := Transition.along_append.1 h
  exact absurd h.2.1 (by decide +kernel)

/-! ### One call -/

/-- A pending FIN is not behind `receive_next`. -/
def TcpConnection.FinNotPassed (connection : TcpConnection) : Prop :=
  connection.pendingFin = true →
    seqGe connection.pendingFinSequence connection.receiveNext = true

/-- A pending FIN that is neither passed nor due is ahead. -/
theorem TcpConnection.FinNotPassed.ahead {connection : TcpConnection}
    (h : connection.FinNotPassed) (hdue : connection.pendingFinDue = false)
    (hpending : connection.pendingFin = true) :
    seqGt connection.pendingFinSequence connection.receiveNext = true := by
  have hge := seqGe_iff.1 (h hpending)
  have hne : connection.pendingFinSequence ≠ connection.receiveNext := by
    rw [TcpConnection.pendingFinDue, hpending, Bool.true_and, beq_eq_false_iff_ne] at hdue
    exact hdue
  rw [seqGt_iff]
  exact lt_of_le_of_ne hge fun hzero => hne (SerialNumber.dist_eq_zero.1 hzero.symm)

/-- Whether the pending FIN was passed over is decided by the receive side. -/
theorem TcpConnection.FinNotPassed.congr {connection next : TcpConnection}
    (h : connection.FinNotPassed) (hside : next.receiveSide = connection.receiveSide) :
    next.FinNotPassed := by
  unfold TcpConnection.FinNotPassed
  rw [show next.pendingFin = connection.pendingFin from
      congrArg TcpReceiveSide.pendingFin hside,
    show next.pendingFinSequence = connection.pendingFinSequence from
      congrArg TcpReceiveSide.pendingFinSequence hside,
    show next.receiveNext = connection.receiveNext from
      congrArg TcpReceiveSide.receiveNext hside]
  exact h

/-- A pending FIN that is consumed is pending no longer, and one that is not due is left as it
was. -/
theorem consumePendingFin_finNotPassed {connection : TcpConnection}
    (h : connection.FinNotPassed) : (consumePendingFin connection).FinNotPassed := by
  rw [consumePendingFin_eq]
  split_ifs
  · exact fun hpending => absurd hpending Bool.false_ne_true
  · exact h

/-- The payload does not pass the pending FIN when nothing it can reach lies beyond. -/
theorem Payload.finNotPassed {segment : TcpSegment} {connection mid : TcpConnection} {result : ℤ}
    {n : ℕ} (h : Payload segment connection result n mid) (hnot : connection.FinNotPassed)
    (hreach : connection.pendingFin = true → connection.Takes segment →
      ∀ y, connection.Reaches segment.payloadEnd y →
        seqGe connection.pendingFinSequence y = true) : mid.FinNotPassed := by
  rcases h.idle_or_delivered with ⟨-, -, hnext, -, hpending, hsequence⟩ |
    ⟨htakes, last, d, hd, hend⟩
  · unfold TcpConnection.FinNotPassed
    rw [hpending, hsequence, hnext]
    exact hnot
  · have hlast : last.FinNotPassed := by
      intro hpending
      have hpending : connection.pendingFin = true := hd.pending.1.symm.trans hpending
      have hsequence : last.pendingFinSequence = connection.pendingFinSequence := hd.pending.2
      have hto := hd.reaches
      rw [TcpConnection.reaches_deliver, TcpConnection.deliver_receiveNext htakes.1] at hto
      rw [hsequence]
      exact hreach hpending htakes _ hto
    rcases hend with ⟨-, -, rfl, -⟩ | ⟨-, -, rfl, -⟩
    · exact hlast
    · exact consumePendingFin_finNotPassed hlast

/-- `process_fin` does not pass a pending FIN that is not at the place of its own. -/
theorem processFin_finNotPassed {mid : TcpConnection} {segment : TcpSegment}
    (hnot : mid.FinNotPassed)
    (hsingle : mid.pendingFinDue = true → mid.finDue segment = false) :
    (processFin mid segment).FinNotPassed := by
  rcases processFin_cases mid segment with
    ⟨hdue, heq⟩ | ⟨-, -, hgt, -, heq⟩ | ⟨-, heq, -⟩ <;> rw [heq]
  · intro hpending
    have hpending : mid.pendingFin = true := hpending
    have hnodue : mid.pendingFinDue = false := by
      rw [← Bool.not_eq_true]
      exact fun h => absurd (hdue.symm.trans (hsingle h)) (by decide)
    have hgt := seqGt_iff.1 (hnot.ahead hnodue hpending)
    have hback := neg_window_le_dist mid.pendingFinSequence mid.receiveNext
    have hone := SerialNumber.dist_add_right (a := mid.pendingFinSequence)
      (b := mid.receiveNext) (n := 1) (by omega)
    refine seqGe_iff.2 ?_
    show 0 ≤ SerialNumber.dist mid.pendingFinSequence (mid.receiveNext + BitVec.ofNat 32 1)
    omega
  · exact fun _ => seqGe_iff.2 (seqGt_iff.1 hgt).le
  · exact hnot

/-- What carries the induction over a run: a pending FIN is not passed, and it is due
only where the next call consumes it, or in RESET. -/
structure TcpWorld.RemembersFin (world : TcpWorld) : Prop where
  bounded : world.connection.SlotsBounded
  notPassed : world.connection.FinNotPassed
  notDue : world.connection.state.receives = false → world.connection.state ≠ .reset →
    world.connection.pendingFinDue = false

section Payload

variable {segment : TcpSegment} {connection mid : TcpConnection} {result : ℤ} {n : ℕ}

/-- The payload of a segment that stops at the pending FIN does not pass it. -/
theorem Payload.finNotPassed_of_stopsAtFin
    (payload : Payload segment (connection.afterAck segment) result n mid)
    (hnot : (connection.afterAck segment).FinNotPassed)
    (receives : connection.state.receives = true)
    (hstops : connection.pendingFin = true → connection.StopsAtFin segment) :
    mid.FinNotPassed := by
  refine payload.finNotPassed hnot fun hpending htakes y hy => ?_
  rw [TcpConnection.afterAck_pendingFin] at hpending
  rw [TcpConnection.afterAck_pendingFinSequence]
  exact (hstops hpending).reach receives (TcpConnection.takes_afterAck.1 htakes) y
    (TcpConnection.reaches_afterAck.1 hy)

/-- The pending FIN and the one of a segment that stops at it are not due together. -/
theorem Payload.finDue_of_stopsAtFin
    (payload : Payload segment (connection.afterAck segment) 0 n mid)
    (receives : connection.state.receives = true)
    (hstops : connection.pendingFin = true → connection.StopsAtFin segment)
    (hdue : mid.pendingFinDue = true) : mid.finDue segment = false := by
  rcases payload.idle_or_delivered with ⟨-, -, hnext, -, hpending, hsequence⟩ |
    ⟨-, last, d, -, ⟨hres, -⟩ | ⟨-, -, rfl, -⟩⟩
  · rw [TcpConnection.pendingFinDue, hpending, hsequence, hnext, Bool.and_eq_true,
      beq_iff_eq, TcpConnection.afterAck_pendingFin,
      TcpConnection.afterAck_pendingFinSequence, TcpConnection.afterAck_receiveNext] at hdue
    have hsingle := (hstops hdue.1).single receives hdue.2
    rw [TcpConnection.finDue, hnext, TcpConnection.afterAck_receiveNext, ← Bool.not_eq_true,
      Bool.and_eq_true, beq_iff_eq]
    exact hsingle
  · exact absurd hres (by decide)
  · rw [consumePendingFin_pendingFinDue] at hdue
    exact absurd hdue Bool.false_ne_true

end Payload

/-- **One incoming segment** that stops at the pending FIN keeps it ahead. -/
theorem OnSegment.remembersFin {segment : TcpSegment} {connection last : TcpConnection}
    {result : ℤ} {n : ℕ} (hcall : OnSegment segment connection result n last)
    (hnot : connection.FinNotPassed)
    (hnotDue : connection.state.receives = false → connection.state ≠ .reset →
      connection.pendingFinDue = false)
    (hstops : connection.addressedBy segment = true → segment.hasFlag tcpFlagRst = false →
      connection.pendingFin = true → connection.StopsAtFin segment) :
    last.FinNotPassed ∧
      (last.state.receives = false → last.state ≠ .reset → last.pendingFinDue = false) ∧
      (result = 0 → last.pendingFin = true →
        seqGt last.pendingFinSequence last.receiveNext = true) := by
  have hack : (connection.afterAck segment).FinNotPassed :=
    hnot.congr (connection.afterAck_receiveSide segment)
  cases hcall with
  | misaddressed => exact ⟨hnot, hnotDue, fun h => absurd h (by decide)⟩
  | aborted =>
      refine ⟨fun h => ?_, fun _ h => absurd rfl h, fun _ h => ?_⟩ <;>
        exact absurd h Bool.false_ne_true
  | unanswered ports rst state | mismatched ports rst state =>
      have hdue : (connection.afterAck segment).pendingFinDue = false := by
        rw [TcpConnection.pendingFinDue_afterAck]
        exact hnotDue (by rw [state]; rfl) (by rw [state]; decide)
      exact ⟨hack, fun _ _ => hdue, fun _ => hack.ahead hdue⟩
  | opened ports rst state synAck number =>
      refine ⟨fun hpending => ?_, fun h => absurd h.symm Bool.false_ne_true,
        fun h => absurd h (by decide)⟩
      have hpending : (connection.afterAck segment).pendingFin = true := hpending
      rw [TcpConnection.afterAck_pendingFin] at hpending
      have hge := (hstops ports rst hpending).opening state synAck number
      show seqGe (connection.afterAck segment).pendingFinSequence
        (segment.sequenceNumber + 1) = true
      rw [TcpConnection.afterAck_pendingFinSequence]
      exact hge
  | ignored ports rst _ receives =>
      refine ⟨hack, fun hrec hreset => ?_, fun _ hpending => ?_⟩
      · rw [TcpConnection.afterAck_state] at hrec hreset
        rw [TcpConnection.pendingFinDue_afterAck]
        exact hnotDue hrec hreset
      · refine hack.ahead ?_ hpending
        rw [TcpConnection.afterAck_pendingFin] at hpending
        rw [TcpConnection.pendingFinDue_afterAck]
        by_cases hreset : connection.state = .reset
        · have hne := (hstops ports rst hpending).abandoned hreset
          rw [TcpConnection.pendingFinDue, beq_false_of_ne hne, Bool.and_false]
        · exact hnotDue receives hreset
  | refused ports rst receives payload =>
      obtain rfl := payload.fins_of_refused
      have hstate : last.state = connection.state :=
        payload.path.state.trans (TcpConnection.afterAck_state ..)
      refine ⟨payload.finNotPassed_of_stopsAtFin hack receives (hstops ports rst), fun hrec => ?_,
        fun h => absurd h (by decide)⟩
      rw [hstate, receives] at hrec
      exact absurd hrec.symm Bool.false_ne_true
  | @received n mid ports rst receives payload =>
      have hmid := payload.finNotPassed_of_stopsAtFin hack receives (hstops ports rst)
      have hsingle := payload.finDue_of_stopsAtFin receives (hstops ports rst)
      have hlast : (finishClose (consumePendingFin (processFin mid segment))).FinNotPassed :=
        (consumePendingFin_finNotPassed (processFin_finNotPassed hmid hsingle)).congr
          (finishClose_receiveSide _)
      have hdue := (TcpConnection.pendingFinDue_congr
        (finishClose_receiveSide (consumePendingFin (processFin mid segment)))).trans
        (consumePendingFin_pendingFinDue _)
      exact ⟨hlast, fun _ _ => hdue, fun _ => hlast.ahead hdue⟩

/-- Where only the handshake or the closing builders move the state, a FIN that is due
stays where it can be consumed. -/
theorem TcpOp.remembersFin_of_ne_onSegment {op : TcpOp} {connection : TcpConnection}
    (hop : ∀ segment, op ≠ .onSegment segment)
    (hnotDue : connection.state.receives = false → connection.state ≠ .reset →
      connection.pendingFinDue = false)
    (hrec : (op.effect connection).state.receives = false)
    (hreset : (op.effect connection).state ≠ .reset) :
    (op.effect connection).pendingFinDue = false := by
  rw [TcpConnection.pendingFinDue_congr (TcpOp.receiveSide connection hop)]
  rcases TcpOp.state_cases connection hop with heq | heq | ⟨hwas, -⟩ | ⟨-, heq⟩ | ⟨-, heq⟩
  · rw [heq] at hrec hreset
    exact hnotDue hrec hreset
  · exact absurd heq hreset
  · exact hnotDue (by rw [hwas]; rfl) (by rw [hwas]; decide)
  · rw [heq] at hrec
    exact absurd hrec.symm Bool.false_ne_true
  · rw [heq] at hrec
    exact absurd hrec.symm Bool.false_ne_true

/-- The step lemma: as long as no payload reaches beyond the FIN, `receive_next` cannot pass it,
and it is consumed when `receive_next` gets there. -/
theorem TcpWorld.RemembersFin.step {world : TcpWorld} (h : world.RemembersFin) {op : TcpOp}
    (hop : world.StopsAtFin op) : (world.step op).RemembersFin ∧ world.FinAhead op := by
  by_cases hseg : ∃ segment, op = .onSegment segment
  · obtain ⟨segment, rfl⟩ := hseg
    obtain ⟨hnot, hdue, hahead⟩ := (onSegment_spec segment h.bounded).remembersFin h.notPassed
      h.notDue (hop segment rfl)
    exact ⟨⟨TcpOp.slotsBounded _ h.bounded, hnot, hdue⟩, hahead⟩
  · have hne : ∀ segment, op ≠ .onSegment segment := fun segment heq => hseg ⟨segment, heq⟩
    refine ⟨⟨op.slotsBounded h.bounded, h.notPassed.congr (TcpOp.receiveSide _ hne),
      TcpOp.remembersFin_of_ne_onSegment hne h.notDue⟩, ?_⟩
    cases op with
    | onSegment segment => exact absurd rfl (hne segment)
    | buildSyn | buildAck | buildData | buildFin | tick | read => trivial

/-! ### Runs -/

/-- **A pending FIN is never overtaken** in a run whose segments stop at it. -/
theorem along_finAhead (localPort remotePort : BitVec 16) (initialSequence : BitVec 32)
    (ops : List TcpOp)
    (h : Along TcpWorld.step TcpWorld.StopsAtFin
      (TcpWorld.init localPort remotePort initialSequence) ops) :
    Along TcpWorld.step TcpWorld.FinAhead
      (TcpWorld.init localPort remotePort initialSequence) ops :=
  h.imp_of_invariant (fun _ _ h hop => (TcpWorld.RemembersFin.step h hop).1)
    (fun _ _ h hop => (TcpWorld.RemembersFin.step h hop).2)
    ⟨init_slotsBounded _ _ _, fun hpending => absurd hpending Bool.false_ne_true, fun _ _ => rfl⟩

/-- The condition holds of a run that fills the gap before a pending FIN exactly, so
that the FIN is consumed. -/
theorem along_finAhead_filled :
    Along TcpWorld.step TcpWorld.FinAhead TcpWorld.test (establishConnection ++
      [.onSegment (peerSegment 9005 1001 (tcpFlagFin ||| tcpFlagAck) []),
        .onSegment (peerSegment 9001 1001 tcpFlagAck [1, 2, 3, 4])]) := by
  refine along_finAhead _ _ _ _ ⟨?_, ?_, ?_, ?_, trivial⟩
  · exact fun segment heq => absurd heq (by simp)
  · exact fun _ _ _ _ hpending => absurd hpending (by decide +kernel)
  · exact fun _ _ _ _ hpending => absurd hpending (by decide +kernel)
  · rintro segment heq - - -
    obtain rfl := TcpOp.onSegment.inj heq
    refine ⟨fun hstate => absurd hstate (by decide +kernel), fun _ _ y hy => ?_,
      fun _ hdue => absurd hdue (by decide +kernel), fun hstate => absurd hstate (by decide +kernel)⟩
    rw [hy.eq_of_not_holds (by decide +kernel)]
    decide +kernel

end Netstack
