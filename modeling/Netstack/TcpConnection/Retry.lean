/-
# Reading and trying again

The caller's answer to `-2` is to read the ready buffer empty and to present the same
segment again.  The outcome depends on where the refusal came.

Beyond a gap nothing in order is missing, unless a slot held `receive_next` before.  A
segment that is next in order and did not fit was not touched, and the second call
delivers it, provided that it and what it makes deliverable fit into an empty ready buffer:
a payload of more than 32768 new bytes never does (`oversized_unrecoverable`).  A refusal
that came halfway has delivered the segment and left a slot behind that holds
`receive_next`, and no second call with that segment picks the slot up.

`Orderly.caughtUp_iff` decides what one call leaves, `Orderly.recoverable_iff` reads it off
for the second call, and `nothingStranded_iff` joins it with what accepted calls leave.
-/

import Netstack.TcpConnection.Stranded

namespace Netstack

open Transition (run Along along_and along_of_forall along_congr)

/-- Everything contiguous is delivered: `receive_next` is neither in a used slot nor in the
segment. -/
def TcpConnection.CaughtUp (connection : TcpConnection) (segment : TcpSegment) : Prop :=
  ¬connection.Stranded ∧ ¬segment.Holds connection.receiveNext

/-- The world after calls of `tcp_connection_read` with buffers of these lengths. -/
def TcpWorld.reads (world : TcpWorld) (lengths : List ℕ) : TcpWorld :=
  run TcpWorld.step world (lengths.map .read)

/-- A refusal with `-2` is recoverable: when the ready buffer was read empty, the same segment
presented again delivers everything contiguous. -/
def TcpWorld.Recoverable (world : TcpWorld) (op : TcpOp) : Prop :=
  ∀ segment, op = .onSegment segment → (tcpConnectionOnSegment world.connection segment).1 = -2 →
    ∀ lengths, ((world.step op).reads lengths).connection.receiveReady = [] →
      (tcpConnectionOnSegment ((world.step op).reads lengths).connection segment).2.CaughtUp
        segment

/-- A refused segment lies beyond a gap, where no slot holds `receive_next`; or its new bytes
do not fit, and in an empty ready buffer they would, with all that they make deliverable. -/
def TcpWorld.Retries (world : TcpWorld) (op : TcpOp) : Prop :=
  ∀ segment, op = .onSegment segment → world.connection.addressedBy segment = true →
    world.connection.state.receives = true → world.connection.Refuses segment →
      segment.IsFuture world.connection.receiveNext ∧ ¬world.connection.Stranded ∨
        ¬world.connection.HasRoom (segment.bytesFrom world.connection.receiveNext).length ∧
          ¬{ world.connection with receiveReady := [] }.Refuses segment

/-! ### What one call leaves -/

/-- A connection refuses by its slots, by `receive_next` and by what is ready. -/
theorem TcpConnection.refuses_congr {connection next : TcpConnection} {segment : TcpSegment}
    (hslots : next.reassembly = connection.reassembly)
    (hnext : next.receiveNext = connection.receiveNext)
    (hready : next.receiveReady = connection.receiveReady) :
    next.Refuses segment ↔ connection.Refuses segment := by
  have hreaches : ∀ x y, next.Reaches x y ↔ connection.Reaches x y := fun _ _ =>
    ⟨fun h => h.congr hslots.symm, fun h => h.congr hslots⟩
  unfold TcpConnection.Refuses TcpConnection.buffers rangeAlreadyBuffered
  simp only [hreaches, hslots, hnext, hready]

/-- A segment beyond a gap is refused for want of a slot, whatever is ready. -/
theorem TcpConnection.refuses_emptied_of_isFuture {connection : TcpConnection}
    {segment : TcpSegment} (hfuture : segment.IsFuture connection.receiveNext)
    (h : connection.Refuses segment) : { connection with receiveReady := [] }.Refuses segment := by
  rcases h with ⟨-, hwhy⟩ | ⟨holds, -⟩
  · exact Or.inl ⟨hfuture, hwhy⟩
  · exact absurd holds hfuture.not_holds

section InOrder

variable {session : PeerSession} {delivered : List UInt8} {fins : ℕ} {connection : TcpConnection}

/-- A delivered segment is old, so it holds `receive_next` no more; and where `receive_next`
lies in a segment of the peer, no FIN has moved it. -/
theorem PeerSession.InOrder.received_not_holds (h : session.InOrder delivered fins connection)
    {segment : TcpSegment} (hseg : session.Honest segment) {mid : TcpConnection} {n : ℕ}
    (hpayload : Payload segment (connection.afterAck segment) 0 n mid) :
    ¬segment.Holds (finishClose (consumePendingFin (processFin mid segment))).receiveNext := by
  intro hholds
  have hack : session.InOrder delivered fins (connection.afterAck segment) :=
    h.congr (by rw [TcpConnection.afterAck_receiveReady]) (connection.afterAck_receiveSide segment)
  have hlast := hack.path hseg hpayload.received_path
  obtain ⟨offset, hseq, hslice⟩ := hseg.isSlice
  have hnext : (finishClose (consumePendingFin (processFin mid segment))).receiveNext =
      (consumePendingFin (processFin mid segment)).receiveNext :=
    congrArg TcpReceiveSide.receiveNext (finishClose_receiveSide _)
  rw [hnext] at hholds
  obtain ⟨hnone, -⟩ := hlast.of_inRange hslice (hseq ▸ hholds)
  have hdue : (mid.finDue segment).toNat = 0 ∧
      (processFin mid segment).pendingFinDue.toNat = 0 ∧ n = 0 := by omega
  rw [consumePendingFin_receiveNext, processFin_receiveNext, hdue.1, hdue.2.1,
    BitVec.add_zero, BitVec.add_zero] at hholds
  rcases hpayload.idle_or_delivered with ⟨hnot, -, hsame, -⟩ |
    ⟨htakes, last, d, hd, ⟨hres, -⟩ | ⟨-, hfins, rfl, -⟩⟩
  · rw [hsame] at hholds
    cases hpayload with
    | old place | covered place | stored place => exact place.not_holds hholds
    | promoted place room => exact hnot ⟨place, room⟩
  · exact absurd hres (by decide)
  · rw [consumePendingFin_receiveNext, ← hfins, hdue.2.2, BitVec.add_zero] at hholds
    exact (hd.isOld htakes.1).not_holds hholds

end InOrder

/-- **What one call leaves.**  Behind a refusal everything contiguous is delivered only if
nothing was contiguous; behind an accepted call, unless a slot held `receive_next` and the
segment did not. -/
theorem PeerSession.Orderly.caughtUp_iff {session : PeerSession} {world : TcpWorld}
    (h : session.Orderly world) {segment : TcpSegment} (hseg : session.Honest segment)
    (hports : world.connection.addressedBy segment = true)
    (hrec : world.connection.state.receives = true) :
    (tcpConnectionOnSegment world.connection segment).2.CaughtUp segment ↔
      world.connection.Refuses segment ∧ segment.IsFuture world.connection.receiveNext ∧
          ¬world.connection.Stranded ∨
        ¬world.connection.Refuses segment ∧
          (world.connection.Stranded → segment.Holds world.connection.receiveNext) := by
  have hcall := onSegment_spec segment h.bounded
  have hside := world.connection.afterAck_receiveSide segment
  generalize (tcpConnectionOnSegment world.connection segment).1 = result,
    onSegmentFins world.connection segment = n,
    (tcpConnectionOnSegment world.connection segment).2 = last at hcall ⊢
  cases hcall with
  | misaddressed ports => exact absurd (ports.symm.trans hports) Bool.false_ne_true
  | aborted _ rst => exact absurd (hseg.noRst.symm.trans rst) Bool.false_ne_true
  | unanswered _ _ state | mismatched _ _ state | opened _ _ state =>
      exact absurd state (TcpConnectionState.ne_synSent_of_receives hrec)
  | ignored _ _ _ receives => exact absurd (receives.symm.trans hrec) Bool.false_ne_true
  | refused _ _ _ payload =>
      have hrefuses := TcpConnection.refuses_afterAck.1
        ((payload.refused_iff (h.bounded.afterAck segment)).1 rfl)
      rw [and_iff_right hrefuses, or_iff_left (not_and_of_not_left _ (not_not_intro hrefuses))]
      by_cases htakes : world.connection.Takes segment
      · have hleft := payload.halfway (TcpConnection.takes_afterAck.2 htakes)
        exact iff_of_false (fun hcaught => hcaught.1 hleft.1)
          fun hfuture => hfuture.1.not_holds htakes.1
      · obtain rfl := payload.unchanged (mt TcpConnection.takes_afterAck.1 htakes)
        rw [TcpConnection.CaughtUp, TcpConnection.stranded_of_receiveSide hside,
          TcpConnection.afterAck_receiveNext, and_comm]
        refine and_congr_left fun _ => ⟨fun hnot => ?_, TcpSegment.IsFuture.not_holds⟩
        exact (hrefuses.resolve_right fun hover => hnot hover.1).1
  | received _ _ _ payload =>
      have haccepted : ¬world.connection.Refuses segment := fun hrefuses =>
        absurd ((payload.refused_iff (h.bounded.afterAck segment)).2
          (TcpConnection.refuses_afterAck.2 hrefuses)) (by decide)
      rw [and_iff_right haccepted, or_iff_right (not_and_of_not_left _ haccepted),
        TcpConnection.CaughtUp, h.inOrder.received_stranded h.bounded hseg payload,
        and_iff_left (h.inOrder.received_not_holds hseg payload), not_and_not_right]

/-! ### The second call -/

/-- Reads take bytes off the front of the ready buffer, together as many as the buffers have room
for, and change nothing else. -/
theorem TcpWorld.reads_connection (world : TcpWorld) (lengths : List ℕ) :
    (world.reads lengths).connection = { world.connection with
      receiveReady := world.connection.receiveReady.drop lengths.sum } := by
  induction lengths generalizing world with
  | nil => rfl
  | cons len lengths ih =>
      have hstep : (world.step (.read len)).connection = { world.connection with
          receiveReady := world.connection.receiveReady.drop len } := by
        rw [TcpWorld.step_connection, TcpOp.effect, read_eq]
      show ((world.step (.read len)).reads lengths).connection = _
      rw [ih, hstep, List.drop_drop, List.sum_cons]

/-- Reads keep the receiver in order: they are calls that every session allows. -/
theorem PeerSession.Orderly.reads {session : PeerSession} {world : TcpWorld}
    (h : session.Orderly world) (lengths : List ℕ) : session.Orderly (world.reads lengths) := by
  have hallows : Along TcpWorld.step (fun _ op => session.Allows op) world
      (lengths.map .read) := along_of_forall fun op hop => by
    obtain ⟨len, -, rfl⟩ := List.mem_map.1 hop
    exact trivial
  exact hallows.run_invariant (fun _ _ hinv hop => hinv.step hop) h

/-- **The second call** delivers everything contiguous exactly if nothing was contiguous or
the first call was refused before it delivered anything, and what it was refused for fits
into an empty ready buffer. -/
theorem PeerSession.Orderly.retry_iff {session : PeerSession} {world : TcpWorld}
    (h : session.Orderly world) {segment : TcpSegment} (hseg : session.Honest segment)
    (hports : world.connection.addressedBy segment = true)
    (hrec : world.connection.state.receives = true) (hrefuses : world.connection.Refuses segment)
    {lengths : List ℕ}
    (hempty : ((world.step (.onSegment segment)).reads lengths).connection.receiveReady = []) :
    (tcpConnectionOnSegment ((world.step (.onSegment segment)).reads lengths).connection
        segment).2.CaughtUp segment ↔
      segment.IsFuture world.connection.receiveNext ∧ ¬world.connection.Stranded ∨
        ¬world.connection.HasRoom (segment.bytesFrom world.connection.receiveNext).length ∧
          ¬{ world.connection with receiveReady := [] }.Refuses segment := by
  have hagain : session.Allows (.onSegment segment) := hseg
  have horder := (h.step hagain).reads lengths
  have hcall := onSegment_spec segment h.bounded
  rw [(onSegment_refused_iff h.bounded hseg.noRst).2 ⟨hports, hrec, hrefuses⟩] at hcall
  obtain ⟨-, -, payload, hstate, haddressed⟩ := hcall.refusal
  have hread := (world.step (.onSegment segment)).reads_connection lengths
  rw [hread] at hempty
  rw [TcpWorld.step_connection, TcpOp.effect] at hread hempty
  replace hempty : (tcpConnectionOnSegment world.connection segment).2.receiveReady.drop
    lengths.sum = [] := hempty
  rw [hempty] at hread
  rw [horder.caughtUp_iff hseg (by rw [hread]; exact haddressed)
    (by rw [hread]; exact (congrArg TcpConnectionState.receives hstate).trans hrec), hread]
  generalize (tcpConnectionOnSegment world.connection segment).2 = last at payload ⊢
  by_cases htakes : world.connection.Takes segment
  · -- the segment is old by now, and a slot that holds `receive_next` is left
    obtain ⟨hstranded, hold, -⟩ := payload.halfway (TcpConnection.takes_afterAck.2 htakes)
    refine iff_of_false ?_ ?_
    · rintro (⟨-, hfuture, -⟩ | ⟨-, hholds⟩)
      · exact hold.not_isFuture hfuture
      · exact hold.not_holds (hholds hstranded)
    · rintro (⟨hfuture, -⟩ | ⟨hroom, -⟩)
      · exact hfuture.not_holds htakes.1
      · exact hroom htakes.2
  · -- the first call moved nothing
    obtain rfl := payload.unchanged (mt TcpConnection.takes_afterAck.1 htakes)
    have hsame : { world.connection.afterAck segment with receiveReady := [] }.Refuses segment ↔
        { world.connection with receiveReady := [] }.Refuses segment :=
      TcpConnection.refuses_congr (TcpConnection.afterAck_reassembly ..)
        (TcpConnection.afterAck_receiveNext ..) rfl
    have hstranded : { world.connection.afterAck segment with receiveReady := [] }.Stranded ↔
        world.connection.Stranded :=
      TcpConnection.stranded_congr (TcpConnection.afterAck_reassembly ..)
        (TcpConnection.afterAck_receiveNext ..)
    rw [hsame, hstranded]
    show _ ∧ segment.IsFuture (world.connection.afterAck segment).receiveNext ∧ _ ∨
      _ ∧ (_ → segment.Holds (world.connection.afterAck segment).receiveNext) ↔ _
    rw [TcpConnection.afterAck_receiveNext]
    rcases hrefuses with hbeyond | ⟨holds, hover⟩
    · have hfuture := hbeyond.1
      have hagain := TcpConnection.refuses_emptied_of_isFuture hfuture (Or.inl hbeyond)
      simp only [hagain, hfuture, hfuture.not_holds, true_and, not_true_eq_false, false_and,
        and_false, or_false]
    · have hroom : ¬world.connection.HasRoom
          (segment.bytesFrom world.connection.receiveNext).length := fun hroom =>
        htakes ⟨holds, hroom⟩
      have hnear : ¬segment.IsFuture world.connection.receiveNext := fun h => h.not_holds holds
      simp only [hnear, holds, hroom, false_and, and_false, not_false_eq_true, true_and,
        implies_true, and_true, false_or]

/-- **One refusal** is recoverable exactly if it meets the condition. -/
theorem PeerSession.Orderly.recoverable_iff {session : PeerSession} {world : TcpWorld}
    (h : session.Orderly world) {op : TcpOp} (hop : session.Allows op) :
    world.Recoverable op ↔ world.Retries op := by
  refine forall_congr' fun segment => forall_congr' fun heq => ?_
  subst heq
  have hseg : session.Honest segment := hop
  rw [onSegment_refused_iff h.bounded hseg.noRst, and_imp, and_imp]
  refine forall_congr' fun hports => forall_congr' fun hrec => forall_congr' fun hrefuses => ?_
  constructor
  · intro hall
    have hempty : ((world.step (.onSegment segment)).reads
        [(world.step (.onSegment segment)).connection.receiveReady.length]).connection.receiveReady
          = [] := by
      rw [TcpWorld.reads_connection, List.sum_singleton]
      exact List.drop_length
    exact (h.retry_iff hseg hports hrec hrefuses hempty).1 (hall _ hempty)
  · intro hcondition lengths hempty
    exact (h.retry_iff hseg hports hrec hrefuses hempty).2 hcondition

/-- **A payload with more new bytes than the ready buffer holds** is refused for good. -/
theorem PeerSession.Orderly.oversized_unrecoverable {session : PeerSession} {world : TcpWorld}
    (h : session.Orderly world) {segment : TcpSegment} (hseg : session.Honest segment)
    (hports : world.connection.addressedBy segment = true)
    (hrec : world.connection.state.receives = true)
    (holds : segment.Holds world.connection.receiveNext)
    (hlong : tcpReceiveReadyCapacity <
      (segment.bytesFrom world.connection.receiveNext).length) :
    ¬world.Recoverable (.onSegment segment) := by
  have hop : session.Allows (.onSegment segment) := hseg
  have hdist : (segment.payloadEnd - world.connection.receiveNext).toNat =
      (segment.bytesFrom world.connection.receiveNext).length := by
    have hadd := length_bytesFrom holds
    have hlen := segment.payload_length_lt
    rw [← TcpSegment.bytesFrom] at hadd
    rw [TcpSegment.payloadEnd_eq holds]
    bv_omega
  rw [h.recoverable_iff hop]
  intro hretries
  rcases hretries segment rfl hports hrec (Or.inr ⟨holds, _, .refl, by omega⟩) with
    ⟨hfuture, -⟩ | ⟨-, hfits⟩
  · exact hfuture.not_holds holds
  · exact hfits (Or.inr ⟨holds, _, .refl, by rw [hdist]; omega⟩)

/-! ### Runs -/

/-- **Nothing contiguous is left behind** in a session with an honest peer, neither by an
accepted call nor behind a refusal after a second one, exactly if every call picks up what
it meets and every refusal came early and for something that fits. -/
theorem nothingStranded_iff (session : PeerSession) (ops : List TcpOp)
    (h : ∀ op ∈ ops, session.Allows op) :
    Along TcpWorld.step (fun world op => world.StrandsNothing op ∧ world.Recoverable op)
        session.start ops ↔
      Along TcpWorld.step (fun world op => world.PicksUp op ∧ world.Retries op)
        session.start ops := by
  have hallows : Along TcpWorld.step (fun _ op => session.Allows op) session.start ops :=
    along_of_forall h
  have hsplit (P : TcpWorld → TcpOp → Prop) :
      Along TcpWorld.step (fun world op => session.Allows op ∧ P world op) session.start ops ↔
        Along TcpWorld.step P session.start ops := along_and.trans (and_iff_right hallows)
  rw [← hsplit, ← hsplit fun world op => world.PicksUp op ∧ world.Retries op]
  exact along_congr (I := session.Orderly)
    (fun _ _ hinv => and_congr_right fun hop =>
      and_congr (hinv.step_iff hop) (hinv.recoverable_iff hop))
    (fun _ _ hinv hop => hinv.step hop.1) ops session.start_blank.orderly

/-- The slot that the second half of the stream waits in is picked up by the front, and
nothing is refused. -/
theorem nothingStranded_reordered :
    Along TcpWorld.step (fun world op => world.StrandsNothing op ∧ world.Recoverable op)
      PeerSession.test.start reorderedOps := by
  have horder := PeerSession.test.start_blank.orderly
  have hback : PeerSession.test.Allows (.onSegment testBack) := testBack_honest
  have hfront : PeerSession.test.Allows (.onSegment testFront) := testFront_honest
  have hread : PeerSession.test.Allows (.read 3) := trivial
  refine (nothingStranded_iff PeerSession.test reorderedOps reorderedOps_allowed).2
    ⟨⟨?_, ?_⟩, ⟨?_, ?_⟩, ⟨?_, ?_⟩, trivial⟩
  · exact fun _ _ _ _ _ _ hstranded => absurd hstranded (by decide +kernel)
  · refine (horder.recoverable_iff hback).1 ?_
    rintro _ ⟨⟩ hres
    exact absurd hres (by decide +kernel)
  · exact fun _ heq => absurd heq TcpOp.noConfusion
  · exact fun _ heq => absurd heq TcpOp.noConfusion
  · exact fun _ _ _ _ _ _ hstranded => absurd hstranded (by decide +kernel)
  · refine (((horder.step hback).step hread).recoverable_iff hfront).1 ?_
    rintro _ ⟨⟩ hres
    exact absurd hres (by decide +kernel)

/-! ### A stream longer than the ready buffer -/

/-- A stream one byte longer than the ready buffer. -/
def PeerSession.long : PeerSession :=
  .testWith (List.replicate 32769 0) (by rw [List.length_replicate]; decide)

/-- All of the long stream but its last byte. -/
def longFront : TcpSegment :=
  { peerSegment 9001 1001 tcpFlagAck [] with
    payload := List.replicate 32768 0
    payload_le := by rw [List.length_replicate]; decide }

/-- The front of the long stream takes all of the ready buffer, and ends where its last byte
begins. -/
theorem longFront_takes {connection : TcpConnection} (hnext : connection.receiveNext = 9001)
    (hready : connection.receiveReady = []) :
    connection.Takes longFront ∧ longFront.payloadEnd = 41769 := by
  have hseq : longFront.sequenceNumber = 9001 := by decide +kernel
  have hlen : longFront.payload.length = 32768 := List.length_replicate
  have hholds : longFront.Holds connection.receiveNext := by
    rw [TcpSegment.Holds, SerialNumber.InRange, hseq, hlen, hnext]
    decide
  refine ⟨⟨hholds, ?_⟩, by rw [TcpSegment.payloadEnd, hseq, hlen]; decide⟩
  have hadd := length_bytesFrom hholds
  rw [← TcpSegment.bytesFrom, hlen] at hadd
  rw [TcpConnection.HasRoom, hready, List.length_nil]
  show 0 + _ ≤ 32768
  omega

/-- With the last byte in a slot the front of the long stream does not fit. -/
theorem longFront_refused {connection : TcpConnection} (hnext : connection.receiveNext = 9001)
    (hready : connection.receiveReady = []) {i : SlotIndex}
    (hslot : connection.reassembly i = ⟨true, 41769, [0]⟩) : connection.Refuses longFront := by
  obtain ⟨⟨hholds, -⟩, hend⟩ := longFront_takes hnext hready
  have hwaits : (connection.reassembly i).Holds longFront.payloadEnd := by
    rw [hslot, hend]
    decide
  refine Or.inr ⟨hholds, _, .slot .refl hwaits, ?_⟩
  rw [hready, hslot, hnext]
  decide

/-- What the front of the long stream meets when the last byte arrived before it. -/
theorem PeerSession.long_met :
    let connection := (PeerSession.long.start.step
      (.onSegment (peerSegment 41769 1001 tcpFlagAck [0]))).connection
    (connection.state = .established ∧ connection.addressedBy longFront = true) ∧
      connection.receiveNext = 9001 ∧ connection.receiveReady = [] ∧
      connection.reassembly ⟨0, by decide⟩ = ⟨true, 41769, [0]⟩ := by
  decide +kernel

/-- **Stranded.**  The last byte of the long stream arrives first and waits in a slot.
The rest fills the ready buffer and is refused, because the last byte does not fit any
more.  Read and presented again, it is accepted, and the last byte still waits: the
accepted call strands it, and the refusal was not recoverable. -/
theorem blockedPromotion_strands :
    let ops : List TcpOp := [.onSegment (peerSegment 41769 1001 tcpFlagAck [0]),
      .onSegment longFront, .read 32768, .onSegment longFront]
    (∀ op ∈ ops, PeerSession.long.Allows op) ∧
      ¬Along TcpWorld.step TcpWorld.StrandsNothing PeerSession.long.start ops ∧
      ¬Along TcpWorld.step TcpWorld.Recoverable PeerSession.long.start ops := by
  intro ops
  have hlast : PeerSession.long.Allows (.onSegment (peerSegment 41769 1001 tcpFlagAck [0])) := by
    refine ⟨by decide +kernel, by decide +kernel, 32768, by decide +kernel, ?_, by decide +kernel⟩
    show [0] <+: (List.replicate 32769 (0 : UInt8)).drop 32768
    rw [List.drop_replicate]
    exact List.prefix_rfl
  have hfront : PeerSession.long.Honest longFront := by
    refine ⟨by decide +kernel, by decide +kernel, 0, by decide +kernel, ?_, ?_⟩
    · show List.replicate 32768 (0 : UInt8) <+: (List.replicate 32769 (0 : UInt8)).drop 0
      rw [List.drop_zero, List.prefix_replicate_iff, List.length_replicate]
      exact ⟨by decide, rfl⟩
    · exact fun hfin => absurd hfin (by decide +kernel)
  have hagain : PeerSession.long.Allows (.onSegment longFront) := hfront
  have horder := PeerSession.long.start_blank.orderly.step hlast
  obtain ⟨⟨hstate, hports⟩, hnext, hready, hslot⟩ := PeerSession.long_met
  have htakes := (longFront_takes hnext hready).1
  have hrefuses := longFront_refused hnext hready hslot
  refine ⟨?_, fun h => ?_, fun h => ?_⟩
  · intro op hop
    simp only [ops, List.mem_cons, List.not_mem_nil, or_false] at hop
    rcases hop with rfl | rfl | rfl | rfl
    · exact hlast
    · exact hfront
    · trivial
    · exact hfront
  · exact horder.halfway_strands hfront hports (by rw [hstate]; rfl) htakes hrefuses le_rfl
      h.2.2.2.1
  · rcases (horder.recoverable_iff hagain).1 h.2.1 longFront rfl hports (by rw [hstate]; rfl)
      hrefuses with ⟨hfuture, -⟩ | ⟨hroom, -⟩
    · exact hfuture.not_holds htakes.1
    · exact hroom htakes.2

/-- All of the long stream. -/
def longWhole : TcpSegment :=
  { peerSegment 9001 1001 tcpFlagAck [] with
    payload := List.replicate 32769 0
    payload_le := by rw [List.length_replicate]; decide }

/-- The long stream in one segment is next in order and meets an empty connection, and its
refusal is not recoverable all the same. -/
theorem longWhole_unrecoverable :
    PeerSession.long.Allows (.onSegment longWhole) ∧
      PeerSession.long.start.PicksUp (.onSegment longWhole) ∧
      ¬PeerSession.long.start.Recoverable (.onSegment longWhole) := by
  have hseg : PeerSession.long.Honest longWhole := by
    refine ⟨by decide +kernel, by decide +kernel, 0, by decide +kernel, ?_, ?_⟩
    · show List.replicate 32769 (0 : UInt8) <+: (List.replicate 32769 (0 : UInt8)).drop 0
      rw [List.drop_zero]
    · exact fun hfin => absurd hfin (by decide +kernel)
  have hnext : PeerSession.long.start.connection.receiveNext = 9001 := by decide +kernel
  have hseq : longWhole.sequenceNumber = 9001 := by decide +kernel
  have hlen : longWhole.payload.length = 32769 := List.length_replicate
  have hholds : longWhole.Holds PeerSession.long.start.connection.receiveNext := by
    rw [TcpSegment.Holds, SerialNumber.InRange, hseq, hlen, hnext]
    decide
  have hadd := length_bytesFrom hholds
  rw [← TcpSegment.bytesFrom, hseq, hlen, hnext] at hadd
  refine ⟨hseg, fun segment heq _ _ _ _ _ => ?_,
    PeerSession.long.start_blank.orderly.oversized_unrecoverable hseg (by decide +kernel)
      (by decide +kernel) hholds ?_⟩
  · cases heq
    exact hholds
  · rw [hnext]
    show 32768 < _
    rw [show ((9001 : BitVec 32) - 9001).toNat = 0 from rfl] at hadd
    omega

end Netstack
