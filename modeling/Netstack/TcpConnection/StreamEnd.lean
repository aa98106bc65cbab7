/-
# The peer's FIN ends the receive stream

Once the peer's FIN is consumed nothing should be received any more: no byte, and
no second FIN (`TcpWorld.EndsStream`).  TIME-WAIT and CLOSED keep to this, since
they return before the payload.  CLOSE-WAIT and LAST-ACK go on through
`process_payload` and `process_fin` like an open connection, and take what comes
at `receive_next`: `dataAfterFin_delivered`.

`endsStream_iff` says for which runs it holds: in CLOSE-WAIT and LAST-ACK no segment
holds the next byte with room for it and none has its FIN there, and no segment
brings one FIN to a place where another is pending right behind it.
-/

import Netstack.TcpConnection.CloseStates
import Netstack.TcpConnection.Reach

namespace Netstack

open Transition (run Along along_congr)

/-- The states behind the peer's FIN. -/
def TcpConnectionState.ended : TcpConnectionState → Bool
  | .closeWait | .lastAck | .timeWait | .closed => true
  | .synSent | .established | .finWait1 | .finWait2 | .reset => false

/-- Behind the peer's FIN an incoming segment moves nothing, and at most one FIN is
consumed in a session. -/
def TcpWorld.EndsStream (world : TcpWorld) (op : TcpOp) : Prop :=
  let next := world.step op
  (∀ segment, op = .onSegment segment → world.connection.state.ended = true →
      next.connection.receiveNext = world.connection.receiveNext ∧
        next.connection.receiveReady <+: world.connection.receiveReady) ∧
    next.history.peerFins ≤ 1

/-- The segment has something at `receive_next`: bytes that fit, or its FIN. -/
def TcpConnection.Continues (connection : TcpConnection) (segment : TcpSegment) : Prop :=
  connection.Takes segment ∨
    segment.hasFlag tcpFlagFin = true ∧ segment.payloadEnd = connection.receiveNext

/-- The FIN of the segment is next, or becomes so by its own bytes alone, and another
FIN is pending one number behind it. -/
def TcpConnection.DoubleFin (connection : TcpConnection) (segment : TcpSegment) : Prop :=
  segment.hasFlag tcpFlagFin = true ∧ connection.pendingFin = true ∧
    connection.pendingFinSequence = segment.payloadEnd + 1 ∧
    (segment.payloadEnd = connection.receiveNext ∨
      connection.Takes segment ∧ ∀ i, ¬(connection.reassembly i).Holds segment.payloadEnd)

/-- The call brings nothing behind the peer's FIN, and no two FINs at once. -/
def TcpWorld.RespectsEnd (world : TcpWorld) (op : TcpOp) : Prop :=
  ∀ segment, op = .onSegment segment → world.connection.addressedBy segment = true →
    segment.hasFlag tcpFlagRst = false →
      (world.connection.state = .closeWait ∨ world.connection.state = .lastAck →
        ¬world.connection.Continues segment) ∧
      (world.connection.state = .established ∨ world.connection.state = .finWait1 ∨
        world.connection.state = .finWait2 → ¬world.connection.DoubleFin segment)

/-- **Data behind the FIN.**  In CLOSE-WAIT the byte after the peer's FIN is delivered
like any other. -/
theorem dataAfterFin_delivered :
    ¬Along TcpWorld.step TcpWorld.EndsStream TcpWorld.test (establishConnection ++
      [.onSegment (peerSegment 9001 1001 (tcpFlagFin ||| tcpFlagAck) []),
        .onSegment (peerSegment 9002 1001 tcpFlagAck [42])]) := by
  intro h
  obtain ⟨-, h⟩ := Transition.along_append.1 h
  have hdata := (h.2.1.1 _ rfl (by decide +kernel)).1
  exact absurd hdata (by decide +kernel)

/-! ### The payload of one call -/

section Payload

variable {segment : TcpSegment} {connection mid : TcpConnection} {result : ℤ} {n : ℕ}

/-- A delivery makes the ready buffer longer. -/
theorem Promoted.ready_length_lt {last : TcpConnection} {d : ℕ}
    (hd : Promoted (connection.deliver (segment.bytesFrom connection.receiveNext)) last d)
    (h : segment.Holds connection.receiveNext) :
    connection.receiveReady.length < last.receiveReady.length := by
  have hlen := hd.readyLength
  have hpos : 0 < (segment.bytesFrom connection.receiveNext).length :=
    List.length_pos_iff.2 (bytesFrom_ne_nil h)
  rw [TcpConnection.deliver_receiveReady, List.length_append] at hlen
  omega

theorem TcpSegment.isOld_of_payloadEnd_eq {x : BitVec 32} (h : segment.payloadEnd = x) :
    segment.IsOld x := by
  refine Or.inr ?_
  rw [h, seqLe_iff, SerialNumber.dist_self]

/-- A segment that ends at `receive_next` is not refused. -/
theorem Payload.payloadEnd_ne_of_refused (h : Payload segment connection (-1) n mid)
    (hb : connection.SlotsBounded) : segment.payloadEnd ≠ connection.receiveNext := by
  intro hend
  have hold := TcpSegment.isOld_of_payloadEnd_eq hend
  rcases (h.refused_iff hb).1 rfl with ⟨hfuture, -⟩ | ⟨hholds, -⟩
  · exact hold.not_isFuture hfuture
  · exact hold.not_holds hholds

/-- A refused payload moves something exactly if its first bytes fitted. -/
theorem Payload.refused_idle_iff (h : Payload segment connection (-1) n mid)
    (hb : connection.SlotsBounded) :
    mid.receiveNext = connection.receiveNext ∧ mid.receiveReady <+: connection.receiveReady ↔
      ¬connection.Continues segment := by
  have hend := h.payloadEnd_ne_of_refused hb
  rcases h.idle_or_delivered with ⟨htakes, -, hnext, hready, -, -⟩ |
    ⟨htakes, last, d, hd, ⟨-, -, rfl, -⟩ | ⟨hres, -⟩⟩
  · refine iff_of_true ⟨hnext, hready ▸ List.prefix_rfl⟩ ?_
    rintro (hc | ⟨-, hc⟩)
    · exact htakes hc
    · exact hend hc
  · refine iff_of_false (fun hidle => ?_) (fun hc => hc (Or.inl htakes))
    have hlt := hd.ready_length_lt htakes.1
    have hle := hidle.2.length_le
    omega
  · exact absurd hres (by decide)

/-- The end of an accepted call: where `receive_next` is after both FIN checks. -/
theorem receiveNext_after_fins (mid : TcpConnection) (segment : TcpSegment) :
    (consumePendingFin (processFin mid segment)).receiveNext =
      mid.receiveNext + BitVec.ofNat 32 ((mid.finDue segment).toNat +
        (processFin mid segment).pendingFinDue.toNat) := by
  rw [consumePendingFin_receiveNext, processFin_receiveNext, SerialNumber.add_ofNat_add]

theorem receiveReady_after_fins (mid : TcpConnection) (segment : TcpSegment) :
    (consumePendingFin (processFin mid segment)).receiveReady = mid.receiveReady := by
  rw [consumePendingFin_receiveReady, processFin_receiveReady]

/-- An accepted payload and its FIN move something exactly if the segment had
something at `receive_next`. -/
theorem Payload.received_idle_iff (h : Payload segment connection 0 n mid)
    (hdue : connection.pendingFinDue = false) :
    (consumePendingFin (processFin mid segment)).receiveNext = connection.receiveNext ∧
        (consumePendingFin (processFin mid segment)).receiveReady <+: connection.receiveReady ↔
      ¬connection.Continues segment := by
  rw [receiveNext_after_fins, receiveReady_after_fins]
  rcases h.idle_or_delivered with ⟨htakes, -, hnext, hready, hpending, hsequence⟩ |
    ⟨htakes, last, d, hd, ⟨hres, -⟩ | ⟨-, -, rfl, -⟩⟩
  · have hmid : mid.pendingFinDue = false := by
      rw [TcpConnection.pendingFinDue, hpending, hsequence, hnext]
      exact hdue
    have hfin : mid.finDue segment = true ↔
        segment.hasFlag tcpFlagFin = true ∧ segment.payloadEnd = connection.receiveNext := by
      rw [TcpConnection.finDue, Bool.and_eq_true, beq_iff_eq, hnext]
    rw [hnext, hready, TcpConnection.Continues, or_iff_right htakes, ← hfin, Bool.not_eq_true]
    cases hdirect : mid.finDue segment with
    | false =>
        rw [processFin_pendingFinDue hdirect hmid]
        exact iff_of_true ⟨BitVec.add_zero _, List.prefix_rfl⟩ rfl
    | true =>
        refine iff_of_false (fun hidle => ?_) Bool.true_eq_false.mp
        have hle := (processFin mid segment).pendingFinDue.toNat_le
        have hmoved := hidle.1
        rw [Bool.toNat_true] at hmoved
        bv_omega
  · exact absurd hres (by decide)
  · refine iff_of_false (fun hidle => ?_) (fun hc => hc (Or.inl htakes))
    have hlt := hd.ready_length_lt htakes.1
    have hle := hidle.2.length_le
    rw [consumePendingFin_receiveReady] at hle
    omega

/-- A segment with nothing at `receive_next` consumes no FIN. -/
theorem Payload.fins_eq_zero (h : Payload segment connection 0 n mid)
    (hdue : connection.pendingFinDue = false) (hno : ¬connection.Continues segment) :
    n + (mid.finDue segment).toNat + (processFin mid segment).pendingFinDue.toNat = 0 := by
  rcases h.idle_or_delivered with ⟨-, rfl, hnext, -, hpending, hsequence⟩ | ⟨htakes, -⟩
  · have hmid : mid.pendingFinDue = false := by
      rw [TcpConnection.pendingFinDue, hpending, hsequence, hnext]
      exact hdue
    have hdirect : mid.finDue segment = false := by
      rw [TcpConnection.finDue, hnext, ← Bool.not_eq_true, Bool.and_eq_true, beq_iff_eq]
      exact fun hfin => hno (Or.inr hfin)
    rw [hdirect, processFin_pendingFinDue hdirect hmid]
    rfl
  · exact absurd (Or.inl htakes) hno

/-- Promotion behind the segment stops right at its end exactly when no slot goes on
from there. -/
theorem Promoted.receiveNext_eq_iff {last : TcpConnection} {d : ℕ}
    (hd : Promoted (connection.deliver (segment.bytesFrom connection.receiveNext)) last d)
    (hholds : segment.Holds connection.receiveNext) (hb : connection.SlotsBounded)
    (hsettled : last.Settled) :
    last.receiveNext = segment.payloadEnd ↔
      ∀ i, ¬(connection.reassembly i).Holds segment.payloadEnd := by
  have hnext := hd.receiveNext
  have hcap := hd.le_capacity
  have hstart := TcpConnection.deliver_receiveNext hholds
  rw [hstart] at hnext
  constructor
  · intro hend i hi
    have hreach : (connection.deliver (segment.bytesFrom connection.receiveNext)).Reaches
        (connection.deliver (segment.bytesFrom connection.receiveNext)).receiveNext
        (connection.reassembly i).slotEnd := by
      rw [TcpConnection.reaches_deliver, hstart]
      exact .slot .refl hi
    obtain ⟨j, hj, hslot⟩ := hd.settled hb hsettled hreach
    have hlen := length_bytesFrom hi.2
    have hpos : 0 < ((connection.reassembly i).bytesFrom segment.payloadEnd).length :=
      List.length_pos_iff.2 (bytesFrom_ne_nil hi.2)
    have hlong := (hb i hi.1).2
    have hmax : tcpReassemblySlotDataLen = 2048 := rfl
    rw [← TcpReassemblySlot.bytesFrom] at hlen
    rw [hstart, TcpReassemblySlot.slotEnd_eq hi] at hslot
    rw [hend] at hnext
    bv_omega
  · intro hnone
    have hreach := hd.reaches
    rw [TcpConnection.reaches_deliver, hstart] at hreach
    exact hreach.eq_of_not_holds hnone

/-- Both FIN checks at the end of a call succeed in one case only. -/
theorem both_fins_iff (mid : TcpConnection) (segment : TcpSegment) :
    (mid.finDue segment).toNat + (processFin mid segment).pendingFinDue.toNat = 2 ↔
      segment.hasFlag tcpFlagFin = true ∧ mid.pendingFin = true ∧
        mid.pendingFinSequence = segment.payloadEnd + 1 ∧
          segment.payloadEnd = mid.receiveNext := by
  have hfin : mid.finDue segment = true ↔
      segment.hasFlag tcpFlagFin = true ∧ segment.payloadEnd = mid.receiveNext := by
    rw [TcpConnection.finDue, Bool.and_eq_true, beq_iff_eq]
  have hle := (processFin mid segment).pendingFinDue.toNat_le
  cases hdue : mid.finDue segment with
  | false =>
      rw [Bool.toNat_false]
      refine iff_of_false (by omega) fun h => ?_
      exact absurd (hdue.symm.trans (hfin.2 ⟨h.1, h.2.2.2⟩)) Bool.false_ne_true
  | true =>
      obtain ⟨hflag, hend⟩ := hfin.1 hdue
      have hpending : (processFin mid segment).pendingFinDue = true ↔
          mid.pendingFin = true ∧ mid.pendingFinSequence = segment.payloadEnd + 1 := by
        rcases processFin_cases mid segment with ⟨-, heq⟩ | ⟨hno, -⟩ | ⟨hno, -⟩
        · rw [heq, hend, TcpConnection.pendingFinDue, Bool.and_eq_true, beq_iff_eq]
        · exact absurd (hno.symm.trans hdue) Bool.false_ne_true
        · exact absurd (hno.symm.trans hdue) Bool.false_ne_true
      rw [and_iff_right hflag, ← and_assoc, and_iff_left hend, ← hpending]
      cases (processFin mid segment).pendingFinDue <;> decide

/-- **Two FINs in one call.**  The FIN of the segment is consumed, and then the pending
one, exactly when they are next to each other. -/
theorem Payload.fins_le_one_iff (h : Payload segment connection 0 n mid)
    (hb : connection.SlotsBounded) :
    n + (mid.finDue segment).toNat + (processFin mid segment).pendingFinDue.toNat ≤ 1 ↔
      ¬connection.DoubleFin segment := by
  have hboth := both_fins_iff mid segment
  have hle := (mid.finDue segment).toNat_le
  have hle' := (processFin mid segment).pendingFinDue.toNat_le
  rcases h.idle_or_delivered with ⟨htakes, rfl, hnext, -, hpending, hsequence⟩ |
    ⟨htakes, last, d, hd, ⟨hres, -⟩ | ⟨-, hn, hmid, hsettled⟩⟩
  · rw [hnext, hpending, hsequence] at hboth
    rw [TcpConnection.DoubleFin, or_iff_left (fun h => htakes h.1), ← hboth]
    omega
  · exact absurd hres (by decide)
  · have hend := hd.receiveNext_eq_iff htakes.1 hb hsettled
    have hnext := hd.receiveNext
    have hcap := hd.le_capacity
    rw [TcpConnection.deliver_receiveNext htakes.1] at hnext
    have hne : segment.payloadEnd ≠ connection.receiveNext := fun heq =>
      (TcpSegment.isOld_of_payloadEnd_eq heq).not_holds htakes.1
    rw [TcpConnection.DoubleFin, or_iff_right hne, and_iff_right htakes, ← hend]
    cases hdue : last.pendingFinDue with
    | true =>
        -- the pending FIN was right behind the delivered bytes, and no other can follow
        have hat : last.pendingFinSequence = last.receiveNext := by
          rw [TcpConnection.pendingFinDue, Bool.and_eq_true, beq_iff_eq] at hdue
          exact hdue.2
        have hafter : mid.receiveNext = last.receiveNext + BitVec.ofNat 32 1 := by
          rw [hmid, consumePendingFin_receiveNext, hdue]
          rfl
        have hdirect : mid.finDue segment = false := by
          rw [TcpConnection.finDue, hafter, hnext, Bool.and_eq_false_iff]
          exact Or.inr (beq_eq_false_iff_ne.2 (by bv_omega))
        have hnodue : mid.pendingFinDue = false := by
          rw [hmid]
          exact consumePendingFin_pendingFinDue last
        rw [hn, hdue, hdirect, processFin_pendingFinDue hdirect hnodue]
        refine iff_of_true (by decide) ?_
        rintro ⟨-, -, hsequence, hlast⟩
        have hpending := hd.pending.2
        rw [hat, hlast] at hpending
        have hsame : segment.payloadEnd = connection.pendingFinSequence := hpending
        rw [hsequence] at hsame
        bv_omega
    | false =>
        have hsame : mid = last := by
          rw [hmid, consumePendingFin_eq, hdue, if_neg Bool.false_ne_true]
        rw [hn, hdue, hsame, Bool.toNat_false, Nat.zero_add]
        rw [hsame] at hboth hle hle'
        have hpending : last.pendingFin = connection.pendingFin := hd.pending.1
        have hsequence : last.pendingFinSequence = connection.pendingFinSequence := hd.pending.2
        rw [hpending, hsequence, eq_comm (b := last.receiveNext)] at hboth
        rw [← hboth]
        omega

/-- A refused payload comes with no double FIN. -/
theorem Payload.not_doubleFin_of_refused (h : Payload segment connection (-1) n mid)
    (hb : connection.SlotsBounded) : ¬connection.DoubleFin segment := by
  rintro ⟨-, -, -, hend | ⟨⟨hholds, hroom⟩, hnone⟩⟩
  · exact h.payloadEnd_ne_of_refused hb hend
  rcases (h.refused_iff hb).1 rfl with ⟨hfuture, -⟩ | ⟨-, y, hy, hover⟩
  · exact hfuture.not_holds hholds
  · have hlen := segment.payload_length_lt
    have hadd := length_bytesFrom hholds
    rw [← TcpSegment.bytesFrom] at hadd
    rw [hy.eq_of_not_holds hnone, TcpSegment.payloadEnd_eq hholds] at hover
    unfold TcpConnection.HasRoom at hroom
    have hdist : (connection.receiveNext + BitVec.ofNat 32
        (segment.bytesFrom connection.receiveNext).length - connection.receiveNext).toNat =
        (segment.bytesFrom connection.receiveNext).length := by bv_omega
    omega

end Payload

/-! ### One call -/

section AfterAck

variable {connection : TcpConnection} {segment : TcpSegment}

@[simp] theorem TcpConnection.continues_afterAck :
    (connection.afterAck segment).Continues segment ↔ connection.Continues segment := by
  unfold TcpConnection.Continues
  rw [TcpConnection.takes_afterAck, TcpConnection.afterAck_receiveNext]

/-- ACK processing does not change whether a FIN would be taken twice. -/
@[simp] theorem TcpConnection.doubleFin_afterAck :
    (connection.afterAck segment).DoubleFin segment ↔ connection.DoubleFin segment := by
  unfold TcpConnection.DoubleFin
  rw [TcpConnection.takes_afterAck, TcpConnection.afterAck_receiveNext,
    TcpConnection.afterAck_pendingFin, TcpConnection.afterAck_pendingFinSequence,
    TcpConnection.afterAck_reassembly]

end AfterAck

/-- What carries the induction over a run. -/
structure TcpWorld.Ending (world : TcpWorld) : Prop where
  closing : world.Closing
  once : world.history.peerFins ≤ 1
  notDue : world.connection.state = .closeWait ∨ world.connection.state = .lastAck →
    world.connection.pendingFinDue = false

/-- Before the peer's FIN none has been consumed. -/
theorem TcpWorld.Closing.peerFins_eq_zero {world : TcpWorld} (h : world.Closing)
    (hstate : world.connection.state = .established ∨ world.connection.state = .finWait1 ∨
      world.connection.state = .finWait2) : world.history.peerFins = 0 := by
  have hopen : world.history.established = true := by
    rcases hstate with heq | heq | heq <;>
      exact h.opened (by rw [heq]; decide) (by rw [heq]; decide) (by rw [heq]; decide)
  have hmeans := h.means hopen
  have hpeer : world.history.peer = false := by
    rcases hstate with heq | heq | heq <;> rw [heq] at hmeans
    · exact hmeans.2
    · exact hmeans.2
    · exact hmeans.2.2
  exact Nat.eq_zero_of_not_pos (of_decide_eq_false hpeer)

/-- A state that takes payload is open on the peer's side, or behind its FIN. -/
theorem TcpConnectionState.open_or_ended {state : TcpConnectionState}
    (h : state.receives = true) :
    (state = .established ∨ state = .finWait1 ∨ state = .finWait2) ∧ state.ended = false ∨
      (state = .closeWait ∨ state = .lastAck) ∧ state.ended = true := by
  cases state <;> simp_all [TcpConnectionState.receives, TcpConnectionState.ended]

/-- **One incoming segment** ends the stream, or keeps it ended, exactly when it
respects the end. -/
theorem TcpWorld.Ending.onSegment_iff {connection last : TcpConnection} {history : TcpHistory}
    (h : TcpWorld.Ending ⟨connection, history⟩) {segment : TcpSegment} {result : ℤ} {n : ℕ}
    (hcall : OnSegment segment connection result n last) :
    ((connection.state.ended = true → last.receiveNext = connection.receiveNext ∧
        last.receiveReady <+: connection.receiveReady) ∧ history.peerFins + n ≤ 1) ↔
      (connection.addressedBy segment = true → segment.hasFlag tcpFlagRst = false →
        (connection.state = .closeWait ∨ connection.state = .lastAck →
          ¬connection.Continues segment) ∧
        (connection.state = .established ∨ connection.state = .finWait1 ∨
          connection.state = .finWait2 → ¬connection.DoubleFin segment)) := by
  have hb : connection.SlotsBounded := h.closing.bounded
  have hback := hb.afterAck segment
  have honce : history.peerFins ≤ 1 := h.once
  have hdue : connection.state = .closeWait ∨ connection.state = .lastAck →
      connection.pendingFinDue = false := h.notDue
  cases hcall with
  | misaddressed ports =>
      exact iff_of_true ⟨fun _ => ⟨rfl, List.prefix_rfl⟩, honce⟩
        (fun haddr => absurd (ports.symm.trans haddr) Bool.false_ne_true)
  | aborted ports rst =>
      exact iff_of_true ⟨fun _ => ⟨rfl, List.nil_prefix ..⟩, honce⟩
        (fun _ hno => absurd (hno.symm.trans rst) Bool.false_ne_true)
  | unanswered _ _ state | mismatched _ _ state | opened _ _ state =>
      refine iff_of_true ⟨fun hended => ?_, honce⟩ (fun _ _ => ⟨fun hs => ?_, fun hs => ?_⟩)
      · rw [state] at hended
        exact absurd hended Bool.false_ne_true
      · rw [state] at hs
        exact absurd hs (by decide)
      · rw [state] at hs
        exact absurd hs (by decide)
  | ignored _ _ _ receives =>
      refine iff_of_true ⟨fun _ => ?_, honce⟩ (fun _ _ => ⟨fun hs => ?_, fun hs => ?_⟩)
      · rw [TcpConnection.afterAck_receiveNext, TcpConnection.afterAck_receiveReady]
        exact ⟨rfl, List.prefix_rfl⟩
      · rcases hs with hs | hs <;> rw [hs] at receives <;>
          exact absurd receives.symm Bool.false_ne_true
      · rcases hs with hs | hs | hs <;> rw [hs] at receives <;>
          exact absurd receives.symm Bool.false_ne_true
  | refused ports rst receives payload =>
      obtain rfl := payload.fins_of_refused
      have hidle := payload.refused_idle_iff hback
      have hdouble := payload.not_doubleFin_of_refused hback
      rw [TcpConnection.afterAck_receiveNext, TcpConnection.afterAck_receiveReady,
        TcpConnection.continues_afterAck] at hidle
      rw [TcpConnection.doubleFin_afterAck] at hdouble
      rcases TcpConnectionState.open_or_ended receives with ⟨hopen, hended⟩ | ⟨hclose, hended⟩
      · refine iff_of_true ⟨fun h => absurd (hended.symm.trans h) Bool.false_ne_true, honce⟩
          (fun _ _ => ⟨fun hs => ?_, fun _ => hdouble⟩)
        rcases hs with hs | hs <;> rw [hs] at hopen <;> exact absurd hopen (by decide)
      · rw [hended, hidle]
        refine ⟨fun h _ _ => ⟨fun _ => h.1 rfl, fun hs => ?_⟩, fun h => ⟨fun _ =>
          (h ports rst).1 hclose, honce⟩⟩
        rcases hclose with hc | hc <;> rw [hc] at hs <;> exact absurd hs (by decide)
  | @received n mid ports rst receives payload =>
      rw [finishClose_receiveNext, finishClose_receiveReady]
      rcases TcpConnectionState.open_or_ended receives with ⟨hopen, hended⟩ | ⟨hclose, hended⟩
      · have hone := payload.fins_le_one_iff hback
        have hzero : history.peerFins = 0 := h.closing.peerFins_eq_zero hopen
        rw [TcpConnection.doubleFin_afterAck] at hone
        rw [hzero, Nat.zero_add, hone]
        refine ⟨fun h _ _ => ⟨fun hs => ?_, fun _ => h.2⟩, fun h => ⟨fun h' =>
          absurd (hended.symm.trans h') Bool.false_ne_true, (h ports rst).2 hopen⟩⟩
        rcases hs with hs | hs <;> rw [hs] at hopen <;> exact absurd hopen (by decide)
      · have hdue' : (connection.afterAck segment).pendingFinDue = false := by
          rw [TcpConnection.pendingFinDue_afterAck]
          exact hdue hclose
        have hidle := payload.received_idle_iff hdue'
        have hzero := payload.fins_eq_zero hdue'
        rw [TcpConnection.afterAck_receiveNext, TcpConnection.afterAck_receiveReady,
          TcpConnection.continues_afterAck] at hidle
        rw [TcpConnection.continues_afterAck] at hzero
        rw [hended, hidle]
        refine ⟨fun h _ _ => ⟨fun _ => h.1 rfl, fun hs => ?_⟩, fun h => ?_⟩
        · rcases hclose with hc | hc <;> rw [hc] at hs <;> exact absurd hs (by decide)
        · have hno := (h ports rst).1 hclose
          exact ⟨fun _ => hno, by rw [hzero hno]; exact honce⟩

/-- A call that is not about an incoming segment consumes no FIN. -/
theorem TcpWorld.peerFins_of_ne_onSegment (world : TcpWorld) {op : TcpOp}
    (hop : ∀ segment, op ≠ .onSegment segment) :
    (world.step op).history.peerFins ≤ world.history.peerFins := by
  obtain ⟨connection, history⟩ := world
  rw [TcpWorld.step_history]
  cases op with
  | onSegment segment => exact absurd rfl (hop segment)
  | buildSyn | buildData | buildFin =>
      unfold TcpHistory.record
      dsimp only
      split
      · exact le_rfl
      · first | exact Nat.zero_le _ | exact le_rfl
  | buildAck | tick | read => exact le_rfl

/-- Where the invariant holds, the end of the stream is kept by exactly those calls that respect
it: the condition can then be checked before the call. -/
theorem TcpWorld.Ending.respects_iff {world : TcpWorld} (h : world.Ending) (op : TcpOp) :
    world.EndsStream op ↔ world.RespectsEnd op := by
  by_cases hop : ∃ segment, op = .onSegment segment
  · obtain ⟨segment, rfl⟩ := hop
    have hiff := h.onSegment_iff (onSegment_spec segment h.closing.bounded)
    constructor
    · rintro hends segment' heq
      obtain rfl := TcpOp.onSegment.inj heq
      exact hiff.1 ⟨fun hended => hends.1 segment rfl hended, hends.2⟩
    · intro hrespects
      obtain ⟨hidle, honce⟩ := hiff.2 (hrespects segment rfl)
      exact ⟨fun _ _ hended => hidle hended, honce⟩
  · have hne : ∀ segment, op ≠ .onSegment segment := fun segment heq => hop ⟨segment, heq⟩
    exact iff_of_true ⟨fun segment heq => absurd heq (hne segment),
      (world.peerFins_of_ne_onSegment hne).trans h.once⟩ (fun segment heq => absurd heq (hne segment))

/-- Behind the peer's FIN no pending FIN is next after a call that respects the end. -/
theorem OnSegment.notDue {segment : TcpSegment} {connection last : TcpConnection} {result : ℤ}
    {n : ℕ} (h : OnSegment segment connection result n last)
    (hdue : connection.state = .closeWait ∨ connection.state = .lastAck →
      connection.pendingFinDue = false)
    (hno : connection.state = .closeWait ∨ connection.state = .lastAck →
      connection.addressedBy segment = true → segment.hasFlag tcpFlagRst = false →
        ¬connection.Continues segment)
    (hstate : last.state = .closeWait ∨ last.state = .lastAck) : last.pendingFinDue = false := by
  cases h with
  | misaddressed => exact hdue hstate
  | aborted | opened =>
      rcases hstate with hs | hs <;> exact TcpConnectionState.noConfusion hs
  | unanswered | mismatched | ignored =>
      rw [TcpConnection.afterAck_state] at hstate
      rw [TcpConnection.pendingFinDue_afterAck]
      exact hdue hstate
  | refused ports rst _ payload =>
      obtain rfl := payload.fins_of_refused
      have hsame := payload.path.state.trans (TcpConnection.afterAck_state ..)
      rw [hsame] at hstate
      rcases payload.idle_or_delivered with ⟨-, -, hnext, -, hpending, hsequence⟩ | ⟨htakes, -⟩
      · rw [TcpConnection.pendingFinDue, hpending, hsequence, hnext, ← TcpConnection.pendingFinDue,
          TcpConnection.pendingFinDue_afterAck]
        exact hdue hstate
      · rw [TcpConnection.takes_afterAck] at htakes
        exact absurd (Or.inl htakes) (hno hstate ports rst)
  | @received n mid _ _ _ _ =>
      exact (TcpConnection.pendingFinDue_congr (finishClose_receiveSide _)).trans
        (consumePendingFin_pendingFinDue _)

/-- The other calls that leave CLOSE-WAIT or LAST-ACK do not touch the receive side. -/
theorem TcpOp.notDue_of_ne_onSegment {op : TcpOp} {connection : TcpConnection}
    (hop : ∀ segment, op ≠ .onSegment segment)
    (hdue : connection.state = .closeWait ∨ connection.state = .lastAck →
      connection.pendingFinDue = false)
    (hstate : (op.effect connection).state = .closeWait ∨
      (op.effect connection).state = .lastAck) :
    (op.effect connection).pendingFinDue = false := by
  rw [TcpConnection.pendingFinDue_congr (TcpOp.receiveSide connection hop)]
  rcases TcpOp.state_cases connection hop with heq | heq | ⟨-, heq⟩ | ⟨-, heq⟩ | ⟨hwas, -⟩
  · exact hdue (heq ▸ hstate)
  · rw [heq] at hstate
    exact absurd hstate (by decide)
  · rw [heq] at hstate
    exact absurd hstate (by decide)
  · rw [heq] at hstate
    exact absurd hstate (by decide)
  · exact hdue (Or.inl hwas)

/-- The step lemma of the invariant. -/
theorem TcpWorld.Ending.step {world : TcpWorld} (h : world.Ending) {op : TcpOp}
    (hop : world.RespectsEnd op) : (world.step op).Ending where
  closing := h.closing.step op
  once := ((h.respects_iff op).2 hop).2
  notDue := by
    by_cases hseg : ∃ segment, op = .onSegment segment
    · obtain ⟨segment, rfl⟩ := hseg
      exact (onSegment_spec segment h.closing.bounded).notDue h.notDue
        (fun hstate ports rst => (hop segment rfl ports rst).1 hstate)
    · exact TcpOp.notDue_of_ne_onSegment (fun segment heq => hseg ⟨segment, heq⟩) h.notDue

/-! ### Runs -/

/-- **The peer's FIN ends the stream** along a run, and at most one FIN is consumed in
each of its sessions, if and only if every incoming segment respects the end. -/
theorem endsStream_iff (localPort remotePort : BitVec 16) (initialSequence : BitVec 32)
    (ops : List TcpOp) :
    Along TcpWorld.step TcpWorld.EndsStream
        (TcpWorld.init localPort remotePort initialSequence) ops ↔
      Along TcpWorld.step TcpWorld.RespectsEnd
        (TcpWorld.init localPort remotePort initialSequence) ops :=
  along_congr (fun _ op h => TcpWorld.Ending.respects_iff h op) (fun _ _ h hop => h.step hop) ops
    ⟨TcpWorld.closing_init _ _ _, Nat.zero_le _, fun h => h.elim TcpConnectionState.noConfusion
      TcpConnectionState.noConfusion⟩

end Netstack
