/-
# When the receiver runs out of room

`run_http` advertises a window of 64240 bytes, reads the ready buffer empty after
every segment and gives up on `-2`.  A peer that keeps to the window and sends
segments of at most 1460 bytes can still meet `-2`, because what arrives beyond a gap
needs one of sixteen slots, however short it is (`seventeenth_refused`).

That is the only way.  A slot takes every payload of this length, and all slots
together with a new segment fit into an empty ready buffer: a promotion step moves at
most 1460 bytes and frees a slot for them, so the sum in `PromoteStep.budget` does not
grow.  `exhausted_iff` is the exact condition.
-/

import Netstack.TcpConnection.HonestPeer

namespace Netstack

open Relation (ReflTransGen)
open Transition (run Along)

/-- `TCP_WINDOW_SIZE` of `tools/netstack_http.c` -/
def tcpWindowSize : BitVec 16 := 64240

/-- The payload of a full Ethernet frame behind the IPv4 and TCP headers. -/
def ethernetPayloadLen : ℕ := 1460

/-- A call as `run_http` makes it for a peer that keeps to the window: the ready buffer
was read empty, the segment is short and inside the window or old, and what is built
advertises the window. -/
def TcpWorld.InWindow (world : TcpWorld) : TcpOp → Prop
  | .onSegment segment => world.connection.receiveReady = [] ∧
      segment.payload.length ≤ ethernetPayloadLen ∧
      (segment.IsOld world.connection.receiveNext ∨
        (segment.sequenceNumber - world.connection.receiveNext).toNat + segment.payload.length ≤
          tcpWindowSize.toNat)
  | .buildAck window | .buildData _ window | .buildFin window => window = tcpWindowSize
  | .buildSyn _ | .tick _ | .read _ => True

instance (world : TcpWorld) : (op : TcpOp) → Decidable (world.InWindow op)
  | .onSegment _ => inferInstanceAs (Decidable (_ ∧ _ ∧ (_ ∨ _)))
  | .buildAck _ | .buildData _ _ | .buildFin _ => inferInstanceAs (Decidable (_ = tcpWindowSize))
  | .buildSyn _ | .tick _ | .read _ => inferInstanceAs (Decidable True)

/-- `tcp_connection_on_segment` does not return `-2`. -/
def TcpWorld.NotExhausted (world : TcpWorld) : TcpOp → Prop
  | .onSegment segment => (tcpConnectionOnSegment world.connection segment).1 ≠ -2
  | _ => True

instance (world : TcpWorld) : (op : TcpOp) → Decidable (world.NotExhausted op)
  | .onSegment _ => inferInstanceAs (Decidable (_ ≠ _))
  | .buildSyn _ | .buildAck _ | .buildData _ _ | .buildFin _ | .tick _ | .read _ =>
    inferInstanceAs (Decidable True)

/-- `tcp_connection_on_segment` returns `-2` exactly for a segment that begins after a
gap and is in no slot, while all slots are in use. -/
def TcpWorld.ExhaustedWhenFull (world : TcpWorld) : TcpOp → Prop
  | .onSegment segment => (tcpConnectionOnSegment world.connection segment).1 = -2 ↔
      world.connection.addressedBy segment = true ∧ world.connection.state.receives = true ∧
        segment.IsFuture world.connection.receiveNext ∧
        world.connection.buffers segment = false ∧
        ∀ i, (world.connection.reassembly i).used = true
  | _ => True

/-- The session of a peer that keeps to the window, and of a caller like `run_http`. -/
def PeerSession.Respects (session : PeerSession) (world : TcpWorld) (op : TcpOp) : Prop :=
  session.Allows op ∧ world.InWindow op

/-- A peer with a stream of eighteen bytes. -/
def PeerSession.short : PeerSession := .testWith (List.replicate 18 0) (by decide)

/-- The first byte of the short stream is lost, and the others arrive in segments of their
own, in the loop of `run_http`. -/
def lossyDownload : List TcpOp :=
  (List.range 17).flatMap fun i =>
    [.onSegment (peerSegment (9002 + BitVec.ofNat 32 i) 1001 tcpFlagAck [0]), .read 32768,
      .buildAck tcpWindowSize]

/-- The calls of the download are those that the peer and the user of the session may make, so
that the limit is met in a run that the hypotheses do not exclude. -/
theorem lossyDownload_allowed : ∀ op ∈ lossyDownload, PeerSession.short.Allows op := by
  intro op hop
  obtain ⟨i, hi, hop⟩ := List.mem_flatMap.1 hop
  have hbyte : ∀ i < 17,
      (peerSegment (9002 + BitVec.ofNat 32 i) 1001 tcpFlagAck [0]).hasFlag tcpFlagRst = false ∧
      (peerSegment (9002 + BitVec.ofNat 32 i) 1001 tcpFlagAck [0]).hasFlag tcpFlagSyn = false ∧
      (peerSegment (9002 + BitVec.ofNat 32 i) 1001 tcpFlagAck [0]).sequenceNumber =
        PeerSession.short.sequenceAt (i + 1) ∧
      Stream.Slice PeerSession.short.stream (i + 1)
        (peerSegment (9002 + BitVec.ofNat 32 i) 1001 tcpFlagAck [0]).payload ∧
      (peerSegment (9002 + BitVec.ofNat 32 i) 1001 tcpFlagAck [0]).hasFlag tcpFlagFin = false := by
    decide +kernel
  obtain ⟨hrst, hsyn, hseq, hslice, hfin⟩ := hbyte i (List.mem_range.1 hi)
  simp only [List.mem_cons, List.not_mem_nil, or_false] at hop
  rcases hop with rfl | rfl | rfl
  · exact ⟨hrst, hsyn, i + 1, hseq, hslice,
      fun h => absurd (hfin.symm.trans h) Bool.false_ne_true⟩
  · trivial
  · trivial

/-- **The seventeenth byte is refused**, although it is well inside the window. -/
theorem seventeenth_refused :
    Along TcpWorld.step PeerSession.short.Respects PeerSession.short.start lossyDownload ∧
      ¬Along TcpWorld.step TcpWorld.NotExhausted PeerSession.short.start lossyDownload := by
  refine ⟨Transition.along_and.2 ⟨Transition.along_of_forall lossyDownload_allowed, ?_⟩, ?_⟩
  · decide +kernel
  · decide +kernel

/-! ### What the slots hold together -/

/-- No slot in use holds more than `len` bytes. -/
def TcpConnection.SlotsWithin (connection : TcpConnection) (len : ℕ) : Prop :=
  ∀ i, (connection.reassembly i).used = true →
    (connection.reassembly i).payload.length ≤ len

section SlotsWithin

variable {len : ℕ} {segment : TcpSegment} {connection next last : TcpConnection}

/-- Promotion empties slots and fills none. -/
theorem PromoteStep.slotsWithin (h : PromoteStep connection next)
    (hw : connection.SlotsWithin len) : next.SlotsWithin len := by
  intro j hj
  rcases h.slot j with heq | hfree
  · rw [heq] at hj ⊢
    exact hw j hj
  · exact absurd (hfree.symm.trans hj) Bool.false_ne_true

/-- The only step that fills a slot fills it with the payload of the segment, whose length the
peer bounds. -/
theorem ReceiveStep.slotsWithin (h : ReceiveStep segment connection next)
    (hlen : segment.payload.length ≤ len) (hw : connection.SlotsWithin len) :
    next.SlotsWithin len := by
  cases h with
  | accept | remember => exact hw
  | buffer =>
      intro j hj
      rw [TcpConnection.store_reassembly] at hj ⊢
      split_ifs at hj ⊢
      · exact hlen
      · exact hw j hj
  | promote step => exact step.slotsWithin hw

/-- The same along the whole receive path, by the invariant rule for paths. -/
theorem ReceivePath.slotsWithin {n : ℕ} (h : ReceivePath segment connection n last)
    (hlen : segment.payload.length ≤ len) (hw : connection.SlotsWithin len) :
    last.SlotsWithin len :=
  h.invariant (P := fun _ c => c.SlotsWithin len) (fun _ _ _ hP hs => hs.slotsWithin hlen hP)
    (fun _ _ _ hP hs => by cases hs <;> exact hP) hw

/-- The bound is about the slots alone. -/
theorem TcpConnection.SlotsWithin.congr (hw : connection.SlotsWithin len)
    (hslots : next.reassembly = connection.reassembly) : next.SlotsWithin len := by
  unfold TcpConnection.SlotsWithin
  rw [hslots]
  exact hw

/-- An incoming segment of a modest peer keeps the slots within its length, in every branch. -/
theorem OnSegment.slotsWithin {result : ℤ} {n : ℕ}
    (h : OnSegment segment connection result n last) (hlen : segment.payload.length ≤ len)
    (hw : connection.SlotsWithin len) : last.SlotsWithin len := by
  have hack : (connection.afterAck segment).SlotsWithin len :=
    hw.congr (connection.afterAck_reassembly segment)
  cases h with
  | misaddressed => exact hw
  | aborted => exact fun _ hused => absurd hused Bool.false_ne_true
  | unanswered | mismatched | ignored | opened => exact hack
  | refused _ _ _ payload => exact payload.path.slotsWithin hlen hack
  | received _ _ _ payload =>
      exact (payload.received_path.slotsWithin hlen hack).congr
        (congrArg TcpReceiveSide.reassembly (finishClose_receiveSide _))

/-- **The budget.**  The ready bytes and `len` for every slot in use do not grow. -/
theorem PromoteStep.budget (h : PromoteStep connection next) (hw : connection.SlotsWithin len) :
    next.receiveReady.length + len * next.usedSlots.card ≤
      connection.receiveReady.length + len * connection.usedSlots.card := by
  have hcard := h.usedSlots_card
  obtain ⟨rest, hrest⟩ := Nat.exists_eq_add_of_lt hcard
  have hmul : len * connection.usedSlots.card = len * next.usedSlots.card + len * rest + len := by
    rw [hrest, Nat.mul_add, Nat.mul_add, Nat.mul_one]
  cases h with
  | discard =>
      rw [removeReassemblySlot_receiveReady]
      omega
  | @deliver i holds room =>
      have hadd := length_bytesFrom holds.2
      rw [← TcpReassemblySlot.bytesFrom] at hadd
      have hshort := hw i holds.1
      rw [removeReassemblySlot_receiveReady, TcpConnection.deliver_receiveReady,
        List.length_append]
      omega

/-- A promotion that began within the capacity is not blocked. -/
theorem TcpConnection.not_blocked_of_budget (hw : connection.SlotsWithin len)
    (hsteps : ReflTransGen PromoteStep connection last)
    (hbudget : connection.receiveReady.length + len * connection.usedSlots.card ≤
      tcpReceiveReadyCapacity) : ¬last.Blocked := by
  have hlast := promoteSteps_invariant
    (P := fun c => c.SlotsWithin len ∧ c.receiveReady.length + len * c.usedSlots.card ≤
      tcpReceiveReadyCapacity)
    (fun _ _ hP hs => ⟨hs.slotsWithin hP.1, (hs.budget hP.1).trans hP.2⟩) hsteps ⟨hw, hbudget⟩
  rintro ⟨i, holds, hroom⟩
  have hadd := length_bytesFrom holds.2
  rw [← TcpReassemblySlot.bytesFrom] at hadd
  have hshort := hlast.1 i holds.1
  have hused : 0 < last.usedSlots.card :=
    Finset.card_pos.2 ⟨i, TcpConnection.mem_usedSlots.2 holds.1⟩
  have hone : len * 1 ≤ len * last.usedSlots.card := Nat.mul_le_mul_left len hused
  have hfits := hlast.2
  unfold TcpConnection.HasRoom at hroom
  omega

/-- **A refused payload** found all slots in use, when the payloads are short and the
ready buffer is empty. -/
theorem Payload.refused_iff_full {result : ℤ} {n : ℕ}
    (h : Payload segment connection result n last) (hw : connection.SlotsWithin len)
    (hready : connection.receiveReady = []) (hlen : segment.payload.length ≤ len)
    (hslot : len ≤ tcpReassemblySlotDataLen)
    (hall : len + len * tcpReassemblySlotCount ≤ tcpReceiveReadyCapacity) :
    result = -1 ↔ segment.IsFuture connection.receiveNext ∧
      connection.buffers segment = false ∧ ∀ i, (connection.reassembly i).used = true := by
  cases h with
  | old place => exact iff_of_false (by decide) fun hfull => place.not_isFuture hfull.1
  | full place why => exact iff_of_true rfl ⟨place, why.resolve_left (by omega)⟩
  | covered place short why =>
      exact iff_of_false (by decide) fun hfull =>
        absurd (hfull.2.1.symm.trans why) Bool.false_ne_true
  | @stored i place short fresh free =>
      exact iff_of_false (by decide) fun hfull =>
        absurd (free.symm.trans (hfull.2.2 i)) Bool.false_ne_true
  | overflow place noRoom =>
      have hadd := length_bytesFrom place
      rw [← TcpSegment.bytesFrom] at hadd
      unfold TcpConnection.HasRoom at noRoom
      rw [hready, List.length_nil] at noRoom
      omega
  | blocked place room steps blocked =>
      have hdelivered : (connection.deliver
          (segment.bytesFrom connection.receiveNext)).SlotsWithin len := hw
      have hadd := length_bytesFrom place
      rw [← TcpSegment.bytesFrom] at hadd
      have hcard := Nat.mul_le_mul_left len (connection.deliver
        (segment.bytesFrom connection.receiveNext)).usedSlots_card_le
      have hlength : (connection.deliver
          (segment.bytesFrom connection.receiveNext)).receiveReady.length ≤ len := by
        rw [TcpConnection.deliver_receiveReady, hready, List.nil_append]
        omega
      exact absurd blocked (TcpConnection.not_blocked_of_budget hdelivered steps (by omega))
  | promoted place => exact iff_of_false (by decide) fun hfull => hfull.1.not_holds place

end SlotsWithin

/-! ### Runs -/

/-- What carries the induction over a run. -/
structure TcpWorld.Modest (world : TcpWorld) : Prop where
  bounded : world.connection.SlotsBounded
  within : world.connection.SlotsWithin ethernetPayloadLen

/-- A call that a modest peer and its user may make keeps the world modest. -/
theorem TcpWorld.Modest.step {world : TcpWorld} (h : world.Modest) {op : TcpOp}
    (hop : world.InWindow op) : (world.step op).Modest := by
  refine ⟨op.slotsBounded h.bounded, ?_⟩
  by_cases hseg : ∃ segment, op = .onSegment segment
  · obtain ⟨segment, rfl⟩ := hseg
    exact (onSegment_spec segment h.bounded).slotsWithin hop.2.1 h.within
  · exact h.within.congr (congrArg TcpReceiveSide.reassembly
      (TcpOp.receiveSide world.connection fun segment heq => hseg ⟨segment, heq⟩))

/-- **One call** is refused for want of a slot and for nothing else. -/
theorem TcpWorld.Modest.exhaustedWhenFull {session : PeerSession} {world : TcpWorld}
    (h : world.Modest) {op : TcpOp} (hop : session.Respects world op) :
    world.ExhaustedWhenFull op := by
  cases op with
  | buildSyn | buildAck | buildData | buildFin | tick | read => trivial
  | onSegment segment =>
      obtain ⟨hseg, hready, hlen, -⟩ := hop
      have hrst : segment.hasFlag tcpFlagRst = false := PeerSession.Honest.noRst hseg
      have hack : (world.connection.afterAck segment).receiveReady = [] :=
        (TcpConnection.afterAck_receiveReady ..).trans hready
      have hwithin : (world.connection.afterAck segment).SlotsWithin ethernetPayloadLen :=
        h.within.congr (TcpConnection.afterAck_reassembly ..)
      have hcall := onSegment_spec segment h.bounded
      show (tcpConnectionOnSegment world.connection segment).1 = -2 ↔ _
      generalize (tcpConnectionOnSegment world.connection segment).1 = result,
        onSegmentFins world.connection segment = n,
        (tcpConnectionOnSegment world.connection segment).2 = last at hcall ⊢
      cases hcall with
      | misaddressed ports =>
          exact iff_of_false (by decide) fun hfull =>
            absurd (ports.symm.trans hfull.1) Bool.false_ne_true
      | aborted _ rst => exact absurd (hrst.symm.trans rst) Bool.false_ne_true
      | unanswered _ _ state | mismatched _ _ state | opened _ _ state =>
          exact iff_of_false (by decide) fun hfull =>
            TcpConnectionState.ne_synSent_of_receives hfull.2.1 state
      | ignored _ _ _ receives =>
          exact iff_of_false (by decide) fun hfull =>
            absurd (receives.symm.trans hfull.2.1) Bool.false_ne_true
      | refused ports _ receives payload =>
          have hfull := (payload.refused_iff_full hwithin hack hlen (by decide) (by decide)).1 rfl
          rw [TcpConnection.afterAck_receiveNext, TcpConnection.buffers_afterAck,
            TcpConnection.afterAck_reassembly] at hfull
          exact iff_of_true rfl ⟨ports, receives, hfull⟩
      | received _ _ _ payload =>
          refine iff_of_false (by decide) fun hfull => ?_
          have hrefused :=
            (payload.refused_iff_full hwithin hack hlen (by decide) (by decide)).2 (by
              rw [TcpConnection.afterAck_receiveNext, TcpConnection.buffers_afterAck,
                TcpConnection.afterAck_reassembly]
              exact hfull.2.2)
          exact absurd hrefused (by decide)

/-- **Exhaustion.**  With a peer that keeps to the window and a caller that reads the
ready buffer empty, `-2` means that all sixteen slots are in use and another payload
beyond a gap has arrived. -/
theorem exhausted_iff (session : PeerSession) (ops : List TcpOp)
    (h : Along TcpWorld.step session.Respects session.start ops) :
    Along TcpWorld.step TcpWorld.ExhaustedWhenFull session.start ops :=
  h.imp_of_invariant (I := TcpWorld.Modest) (fun _ _ hinv hop => hinv.step hop.2)
    (fun _ _ hinv hop => hinv.exhaustedWhenFull hop)
    ⟨session.start_blank.closing.bounded, fun i hi =>
      absurd ((session.start_blank.free i).symm.trans hi) Bool.false_ne_true⟩

/-- The halves of the stream in the wrong order, each with its loop of `run_http`. -/
theorem exhausted_iff_reordered :
    Along TcpWorld.step TcpWorld.ExhaustedWhenFull PeerSession.test.start
      [.onSegment testBack, .read 32768, .onSegment testFront, .read 32768,
        .buildAck tcpWindowSize] := by
  refine exhausted_iff PeerSession.test _ (Transition.along_and.2 ⟨?_, by decide +kernel⟩)
  exact ⟨testBack_honest, trivial, testFront_honest, trivial, trivial, trivial⟩

end Netstack
