/-
# Nothing that arrived is lost

`PeerSession.Has` is the abstract view of what the connection keeps: the set of
positions of the stream that are in order or in a slot.  An accepted call adds the
positions of its segment to this set and takes none away, whatever branch of
`process_payload` it goes through (`InOrder.payload_has`), and a FIN once accepted
stays pending or is consumed (`InOrder.received_knowsFin`).  As an accepted call also
leaves no slot behind that holds `receive_next`, the bytes in order end at the first
position that has not arrived: `reassembly_complete`.

So the connection is a function of the set of segments it accepted.  Their order, their
repetition and the reads in between do not matter.
-/

import Netstack.TcpConnection.Stranded

namespace Netstack

open Relation (ReflTransGen)
open SerialNumber (dist InRange)
open Stream (Slice coveredPrefixes isGreatest_coveredPrefixes coveredPrefixes_congr)
open Transition (run Along)

/-- A segment that holds position `i` of the stream was handed to the connection. -/
def PeerSession.Arrived (session : PeerSession) (ops : List TcpOp) (i : ℕ) : Prop :=
  ∃ segment ∈ TcpOp.segments ops, segment.Holds (session.sequenceAt i)

/-- A segment with a FIN was handed to the connection. -/
def FinArrived (ops : List TcpOp) : Prop :=
  ∃ segment ∈ TcpOp.segments ops, segment.hasFlag tcpFlagFin = true

/-- A call of the session that is made outside RESET and returns 0 if it is about an
incoming segment. -/
def PeerSession.Accepts (session : PeerSession) (world : TcpWorld) (op : TcpOp) : Prop :=
  session.Allows op ∧ world.connection.state ≠ .reset ∧
    ∀ segment, op = .onSegment segment → (tcpConnectionOnSegment world.connection segment).1 = 0

/-- The bytes in order, read or not. -/
def TcpWorld.inOrder (world : TcpWorld) : List UInt8 :=
  world.history.delivered ++ world.connection.receiveReady

/-! ### The positions that the connection has -/

/-- Position `i` of the stream is in order or in a slot. -/
def PeerSession.Has (session : PeerSession) (delivered : List UInt8)
    (connection : TcpConnection) (i : ℕ) : Prop :=
  i < (delivered ++ connection.receiveReady).length ∨
    ∃ j, (connection.reassembly j).Holds (session.sequenceAt i)

section Has

variable {session : PeerSession} {delivered : List UInt8} {fins : ℕ} {connection : TcpConnection}

/-- What the receiver has is a matter of its bytes in order and of its slots; a read moves bytes
between the two lists and changes neither. -/
theorem PeerSession.has_congr {read : List UInt8} {next : TcpConnection}
    (hbytes : read ++ next.receiveReady = delivered ++ connection.receiveReady)
    (hslots : next.reassembly = connection.reassembly) {i : ℕ} :
    session.Has read next i ↔ session.Has delivered connection i := by
  unfold PeerSession.Has
  rw [hbytes, hslots]

/-- A position of the stream in a slice that ends at `receive_next` or before it is in
order. -/
theorem PeerSession.InOrder.lt_of_passed (h : session.InOrder delivered fins connection)
    {sequenceNumber : BitVec 32} {payload : List UInt8}
    (hslice : session.IsSlice sequenceNumber payload)
    (hpassed : seqLe (sequenceNumber + BitVec.ofNat 32 payload.length)
      connection.receiveNext = true) {i : ℕ} (hi : i < session.stream.length)
    (hin : InRange sequenceNumber payload.length (session.sequenceAt i)) :
    i < (delivered ++ connection.receiveReady).length := by
  obtain ⟨offset, rfl, hslice⟩ := hslice
  have hne : payload ≠ [] := by
    rintro rfl
    exact SerialNumber.not_inRange_zero _ _ hin
  have hend := hslice.end_le hne
  have hlen := session.stream_lt
  have hnext := h.add_fins_le
  rw [PeerSession.inRange_iff hslice hne (by omega)] at hin
  rw [← session.sequenceAt_add, h.next, seqLe_iff, PeerSession.sequenceAt,
    PeerSession.sequenceAt, SerialNumber.dist_offset (by omega) (by omega)] at hpassed
  rcases h.fins_le with hfins | ⟨-, hall⟩ <;> omega

/-- A delivery adds the positions of the slice to those in order. -/
theorem PeerSession.InOrder.lt_deliver_iff (h : session.InOrder delivered fins connection)
    {sequenceNumber : BitVec 32} {payload : List UInt8}
    (hslice : session.IsSlice sequenceNumber payload)
    (hin : InRange sequenceNumber payload.length connection.receiveNext) {i : ℕ}
    (hi : i < session.stream.length) :
    i < (delivered ++ (connection.deliver
        (bytesFrom sequenceNumber payload connection.receiveNext)).receiveReady).length ↔
      i < (delivered ++ connection.receiveReady).length ∨
        InRange sequenceNumber payload.length (session.sequenceAt i) := by
  obtain ⟨offset, rfl, hslice⟩ := hslice
  have hne : payload ≠ [] := by
    rintro rfl
    exact SerialNumber.not_inRange_zero _ _ hin
  obtain ⟨rfl, hle, hlt, hend⟩ := h.of_inRange hslice hin
  have hlen := session.stream_lt
  have hadd := length_bytesFrom hin
  rw [h.next, Nat.add_zero, PeerSession.sequenceAt, PeerSession.sequenceAt,
    SerialNumber.toNat_sub_offset hle (by omega), ← PeerSession.sequenceAt,
    ← PeerSession.sequenceAt] at hadd
  rw [PeerSession.inRange_iff hslice hne (by omega), TcpConnection.deliver_receiveReady, ← List.append_assoc,
    @List.length_append _ (delivered ++ connection.receiveReady), h.next, Nat.add_zero]
  omega

/-- A slot whose positions are in order can be dropped. -/
theorem PeerSession.has_removeReassemblySlot {j : SlotIndex}
    (hused : (connection.reassembly j).used = true) {i : ℕ}
    (hin : (connection.reassembly j).Holds (session.sequenceAt i) →
      i < (delivered ++ connection.receiveReady).length) :
    session.Has delivered (removeReassemblySlot connection j) i ↔
      session.Has delivered connection i := by
  unfold PeerSession.Has
  rw [removeReassemblySlot_receiveReady]
  constructor
  · rintro (hlt | ⟨m, holds⟩)
    · exact Or.inl hlt
    · rw [removeReassemblySlot_reassembly hused] at holds
      split_ifs at holds
      · exact absurd holds.1 Bool.false_ne_true
      · exact Or.inr ⟨m, holds⟩
  · rintro (hlt | ⟨m, holds⟩)
    · exact Or.inl hlt
    · by_cases hmj : m = j
      · exact Or.inl (hin (hmj ▸ holds))
      · exact Or.inr ⟨m, by rwa [removeReassemblySlot_reassembly hused, if_neg hmj]⟩

/-- **Promotion** moves positions from the slots into order. -/
theorem PeerSession.InOrder.promote_has (h : session.InOrder delivered fins connection)
    {next : TcpConnection} (hstep : PromoteStep connection next) {i : ℕ}
    (hi : i < session.stream.length) :
    session.Has delivered next i ↔ session.Has delivered connection i := by
  cases hstep with
  | discard used received =>
      exact PeerSession.has_removeReassemblySlot used fun holds =>
        h.lt_of_passed (h.slots _ used) received hi holds.2
  | @deliver j holds room =>
      have hlt := h.lt_deliver_iff (h.slots j holds.1) holds.2 hi
      rw [← TcpReassemblySlot.bytesFrom] at hlt
      have hused : ((connection.deliver ((connection.reassembly j).bytesFrom
          connection.receiveNext)).reassembly j).used = true := holds.1
      rw [PeerSession.has_removeReassemblySlot hused fun hholds => hlt.2 (Or.inr hholds.2)]
      unfold PeerSession.Has
      rw [hlt, or_assoc]
      refine or_congr_right ⟨?_, Or.inr⟩
      rintro (hin | hslot)
      · exact ⟨j, holds.1, hin⟩
      · exact hslot

/-- A segment that a slot contains adds nothing. -/
theorem PeerSession.InOrder.holds_of_buffers (h : session.InOrder delivered fins connection)
    (hb : connection.SlotsBounded) {segment : TcpSegment} (hseg : session.Honest segment)
    (hbuffers : connection.buffers segment = true) {i : ℕ} (hi : i < session.stream.length)
    (hin : segment.Holds (session.sequenceAt i)) :
    ∃ j, (connection.reassembly j).Holds (session.sequenceAt i) := by
  rw [TcpConnection.buffers, rangeAlreadyBuffered, List.any_eq_true] at hbuffers
  obtain ⟨j, -, hslot⟩ := hbuffers
  simp only [Bool.and_eq_true] at hslot
  obtain ⟨hused, hfrom, hto⟩ := hslot
  obtain ⟨offset, hseq, hslice⟩ := hseg.isSlice
  obtain ⟨begins, hbegins, hpart⟩ := h.slots j hused
  have hpart_ne : (connection.reassembly j).payload ≠ [] := List.length_pos_iff.1 (hb j hused).1
  have hne := hin.payload_ne_nil
  have hend := hslice.end_le hne
  have hpart_end := hpart.end_le hpart_ne
  have hlen := session.stream_lt
  refine ⟨j, hused, ?_⟩
  rw [TcpSegment.Holds, hseq, PeerSession.inRange_iff hslice hne (by omega)] at hin
  rw [hbegins, PeerSession.inRange_iff hpart hpart_ne (by omega)]
  rw [hseq, hbegins, seqGe_iff, PeerSession.sequenceAt, PeerSession.sequenceAt,
    SerialNumber.dist_offset (by omega) (by omega)] at hfrom
  rw [TcpSegment.payloadEnd, TcpReassemblySlot.slotEnd, hseq, hbegins, ← session.sequenceAt_add,
    ← session.sequenceAt_add, seqLe_iff, PeerSession.sequenceAt, PeerSession.sequenceAt,
    SerialNumber.dist_offset (by omega) (by omega)] at hto
  omega

/-- A slot that is filled adds the positions that its segment covers, and a free slot covered
nothing before. -/
theorem PeerSession.has_store {j : SlotIndex} {segment : TcpSegment}
    (hfree : (connection.reassembly j).used = false) {i : ℕ} :
    session.Has delivered (connection.store j segment) i ↔
      session.Has delivered connection i ∨ segment.Holds (session.sequenceAt i) := by
  unfold PeerSession.Has
  constructor
  · rintro (hlt | ⟨m, holds⟩)
    · exact Or.inl (Or.inl hlt)
    · rw [TcpConnection.store_reassembly] at holds
      split_ifs at holds
      · exact Or.inr holds.2
      · exact Or.inl (Or.inr ⟨m, holds⟩)
  · rintro ((hlt | ⟨m, holds⟩) | hin)
    · exact Or.inl hlt
    · have hmj : m ≠ j := by
        rintro rfl
        exact absurd (hfree.symm.trans holds.1) Bool.false_ne_true
      exact Or.inr ⟨m, by rwa [TcpConnection.store_reassembly, if_neg hmj]⟩
    · exact Or.inr ⟨j, by rw [TcpConnection.store_reassembly, if_pos rfl]; exact ⟨rfl, hin⟩⟩

/-- **An accepted payload** adds its positions and loses none. -/
theorem PeerSession.InOrder.payload_has (h : session.InOrder delivered fins connection)
    (hb : connection.SlotsBounded) {segment : TcpSegment} (hseg : session.Honest segment)
    {mid : TcpConnection} {n : ℕ} (hpayload : Payload segment connection 0 n mid) {i : ℕ}
    (hi : i < session.stream.length) :
    session.Has delivered mid i ↔
      session.Has delivered connection i ∨ segment.Holds (session.sequenceAt i) := by
  cases hpayload with
  | old place =>
      refine (or_iff_left_of_imp fun hin => Or.inl ?_).symm
      exact h.lt_of_passed hseg.isSlice (place.resolve_left hin.payload_ne_nil) hi hin
  | covered place short why =>
      exact (or_iff_left_of_imp fun hin => Or.inr (h.holds_of_buffers hb hseg why hi hin)).symm
  | stored place short fresh free => exact PeerSession.has_store free
  | @promoted last place room steps settled =>
      have haccepted := h.deliver hseg.isSlice place
      have hlast := promoteSteps_invariant
        (P := fun c => session.InOrder delivered fins c ∧
          (session.Has delivered c i ↔ session.Has delivered
            (connection.deliver (segment.bytesFrom connection.receiveNext)) i))
        (fun _ _ hP hs => ⟨hP.1.step hseg (.promote hs), (hP.1.promote_has hs hi).trans hP.2⟩)
        steps ⟨haccepted, Iff.rfl⟩
      rw [PeerSession.has_congr (by rw [consumePendingFin_receiveReady])
        (consumePendingFin_reassembly last), hlast.2]
      have hlt := h.lt_deliver_iff hseg.isSlice place hi
      rw [← TcpSegment.bytesFrom] at hlt
      unfold PeerSession.Has
      rw [hlt]
      exact or_right_comm

end Has

/-! ### The FIN -/

/-- The FIN of the peer is pending or was consumed. -/
def TcpConnection.KnowsFin (connection : TcpConnection) (fins : ℕ) : Prop :=
  connection.pendingFin = true ∨ fins = 1

section KnowsFin

variable {session : PeerSession} {delivered : List UInt8} {fins : ℕ} {connection : TcpConnection}
  {segment : TcpSegment}

/-- Consuming the pending FIN is knowing it still. -/
theorem PeerSession.InOrder.consumePendingFin_knowsFin
    (h : session.InOrder delivered fins connection) (hseg : session.Honest segment) :
    (consumePendingFin connection).KnowsFin (fins + connection.pendingFinDue.toNat) ↔
      connection.KnowsFin fins := by
  rw [consumePendingFin_eq]
  cases hdue : connection.pendingFinDue with
  | false => exact Iff.rfl
  | true =>
      obtain ⟨rfl, -⟩ := h.at_end (h.at_end_of_due hseg (Or.inl hdue))
      rw [TcpConnection.pendingFinDue, Bool.and_eq_true] at hdue
      exact iff_of_true (Or.inr rfl) (Or.inl hdue.1)

/-- `process_payload` forgets no FIN and learns of none. -/
theorem PeerSession.InOrder.payload_knowsFin (h : session.InOrder delivered fins connection)
    (hseg : session.Honest segment) {mid : TcpConnection} {n : ℕ}
    (hpayload : Payload segment connection 0 n mid) :
    mid.KnowsFin (fins + n) ↔ connection.KnowsFin fins := by
  cases hpayload with
  | old | covered | stored => exact Iff.rfl
  | @promoted last place room steps settled =>
      have hpath := (ReceivePath.refl.step (.accept place room)).trans (.of_promote steps)
      have hlast : session.InOrder delivered fins last := h.path hseg hpath
      rw [hlast.consumePendingFin_knowsFin hseg]
      obtain ⟨d, hd⟩ := Promoted.of_deliver room steps
      unfold TcpConnection.KnowsFin
      rw [hd.pending.1]
      exact Iff.rfl

/-- **`process_fin`** learns of the FIN of its segment. -/
theorem PeerSession.InOrder.processFin_knowsFin (h : session.InOrder delivered fins connection)
    (hseg : session.Honest segment) :
    (processFin connection segment).KnowsFin (fins + (connection.finDue segment).toNat) ↔
      connection.KnowsFin fins ∨ segment.hasFlag tcpFlagFin = true := by
  rcases processFin_cases connection segment with
    ⟨hdue, heq⟩ | ⟨hdue, hfin, -, -, heq⟩ | ⟨hdue, heq, hrest⟩ <;> rw [heq]
  · obtain ⟨rfl, -⟩ := h.at_end (h.at_end_of_due hseg (Or.inr hdue))
    have hfin := hdue
    rw [TcpConnection.finDue, Bool.and_eq_true] at hfin
    exact iff_of_true (Or.inr (by rw [hdue]; rfl)) (Or.inr hfin.1)
  · exact iff_of_true (Or.inl rfl) (Or.inr hfin)
  · rw [hdue]
    refine (or_iff_left_of_imp fun hfin => ?_).symm
    by_cases hgt : seqGt segment.payloadEnd connection.receiveNext = true
    · exact Or.inl (hrest hfin hgt).1
    · -- the FIN is behind `receive_next`, so it was consumed
      have hnext := h.add_fins_le
      have hle := h.length_le
      have hlen := session.stream_lt
      rw [TcpConnection.finDue, hfin, Bool.true_and, beq_eq_false_iff_ne, hseg.fin hfin, h.next,
        ne_eq, PeerSession.sequenceAt_inj (Nat.le_succ _) hnext] at hdue
      rw [hseg.fin hfin, h.next, seqGt_iff, PeerSession.sequenceAt, PeerSession.sequenceAt,
        SerialNumber.dist_offset (by omega) (by omega)] at hgt
      rcases h.fins_le with hfins | ⟨hfins, -⟩
      · omega
      · exact Or.inr hfins

/-- **An accepted call** learns of the FIN of its segment and forgets none. -/
theorem PeerSession.InOrder.received_knowsFin (h : session.InOrder delivered fins connection)
    (hseg : session.Honest segment) {mid : TcpConnection} {n : ℕ}
    (hpayload : Payload segment (connection.afterAck segment) 0 n mid) :
    (finishClose (consumePendingFin (processFin mid segment))).KnowsFin
        (fins + (n + (mid.finDue segment).toNat + (processFin mid segment).pendingFinDue.toNat)) ↔
      connection.KnowsFin fins ∨ segment.hasFlag tcpFlagFin = true := by
  have hack : session.InOrder delivered fins (connection.afterAck segment) :=
    h.congr (by rw [TcpConnection.afterAck_receiveReady]) (connection.afterAck_receiveSide segment)
  have hmid := hack.path hseg hpayload.path
  have hfin := hmid.path hseg (processFin_path segment mid)
  have hclose : (finishClose (consumePendingFin (processFin mid segment))).pendingFin =
      (consumePendingFin (processFin mid segment)).pendingFin :=
    congrArg TcpReceiveSide.pendingFin (finishClose_receiveSide _)
  rw [TcpConnection.KnowsFin, hclose, ← TcpConnection.KnowsFin, ← Nat.add_assoc, ← Nat.add_assoc,
    hfin.consumePendingFin_knowsFin hseg, hmid.processFin_knowsFin hseg,
    hack.payload_knowsFin hseg hpayload, TcpConnection.KnowsFin,
    TcpConnection.afterAck_pendingFin, ← TcpConnection.KnowsFin]

end KnowsFin

/-! ### One call -/

/-- What carries the induction over a run: the connection has what has arrived, and no
slot holds `receive_next`. -/
structure PeerSession.Complete (session : PeerSession) (world : TcpWorld) (ops : List TcpOp) :
    Prop where
  closing : world.Closing
  established : world.history.established = true
  inOrder : session.InOrder world.history.delivered world.history.peerFins world.connection
  has : ∀ i < session.stream.length,
    session.Has world.history.delivered world.connection i ↔ session.Arrived ops i
  notStranded : ¬world.connection.Stranded
  knowsFin : world.connection.KnowsFin world.history.peerFins ↔ FinArrived ops
  notDue : world.connection.pendingFinDue = false

theorem TcpOp.segments_append (ops : List TcpOp) (op : TcpOp) :
    TcpOp.segments (ops ++ [op]) = TcpOp.segments ops ++ TcpOp.segments [op] :=
  List.filterMap_append

/-- A position has arrived with the last segment or before. -/
theorem PeerSession.arrived_append {session : PeerSession} {ops : List TcpOp}
    {segment : TcpSegment} {i : ℕ} :
    session.Arrived (ops ++ [.onSegment segment]) i ↔
      session.Arrived ops i ∨ segment.Holds (session.sequenceAt i) := by
  unfold PeerSession.Arrived
  rw [TcpOp.segments_append]
  show (∃ s ∈ TcpOp.segments ops ++ [segment], _) ↔ _
  simp only [List.mem_append, List.mem_singleton, or_and_right, exists_or, exists_eq_left]

/-- The FIN has arrived with the last segment or before. -/
theorem finArrived_append {ops : List TcpOp} {segment : TcpSegment} :
    FinArrived (ops ++ [.onSegment segment]) ↔
      FinArrived ops ∨ segment.hasFlag tcpFlagFin = true := by
  unfold FinArrived
  rw [TcpOp.segments_append]
  show (∃ s ∈ TcpOp.segments ops ++ [segment], _) ↔ _
  simp only [List.mem_append, List.mem_singleton, or_and_right, exists_or, exists_eq_left]

/-- Only incoming segments count among the segments of a run. -/
theorem TcpOp.segments_append_of_ne {op : TcpOp} (hop : ∀ segment, op ≠ .onSegment segment)
    (ops : List TcpOp) : TcpOp.segments (ops ++ [op]) = TcpOp.segments ops := by
  rw [TcpOp.segments_append]
  cases op with
  | onSegment segment => exact absurd rfl (hop segment)
  | buildSyn | buildAck | buildData | buildFin | tick | read => exact List.append_nil _

/-- In a state that takes no segments the peer's FIN was consumed, or the connection was
reset. -/
theorem PeerSession.Complete.fins_eq_one {session : PeerSession} {world : TcpWorld}
    {ops : List TcpOp} (h : session.Complete world ops)
    (hreceives : world.connection.state.receives = false)
    (hsyn : world.connection.state ≠ .synSent) (hreset : world.connection.state ≠ .reset) :
    world.history.peerFins = 1 := by
  have hmeans := h.closing.means h.established
  have hpeer : world.history.peer = true := by
    revert hmeans hreceives hsyn hreset
    cases world.connection.state <;>
      simp_all [TcpConnectionState.receives, TcpHistory.Means]
  have hpos : 0 < world.history.peerFins := of_decide_eq_true hpeer
  rcases h.inOrder.fins_le with hfins | ⟨hfins, -⟩ <;> omega

/-- **An accepted segment** is added to what has arrived. -/
theorem PeerSession.Complete.received {session : PeerSession} {connection last : TcpConnection}
    {history : TcpHistory} {ops : List TcpOp} (h : session.Complete ⟨connection, history⟩ ops)
    {segment : TcpSegment} (hseg : session.Honest segment) (hreset : connection.state ≠ .reset)
    {n : ℕ} (hcall : OnSegment segment connection 0 n last) :
    (∀ i < session.stream.length, session.Has history.delivered last i ↔
        session.Has history.delivered connection i ∨ segment.Holds (session.sequenceAt i)) ∧
      ¬last.Stranded ∧
      (last.KnowsFin (history.peerFins + n) ↔
        connection.KnowsFin history.peerFins ∨ segment.hasFlag tcpFlagFin = true) ∧
      last.pendingFinDue = false := by
  have hside := connection.afterAck_receiveSide segment
  have hnone : ¬connection.Stranded := h.notStranded
  have hb := h.closing.bounded
  have horder : session.InOrder history.delivered history.peerFins connection := h.inOrder
  have hack : session.InOrder history.delivered history.peerFins (connection.afterAck segment) :=
    horder.congr (by rw [TcpConnection.afterAck_receiveReady]) hside
  have hasack : ∀ i, session.Has history.delivered (connection.afterAck segment) i ↔
      session.Has history.delivered connection i := fun i =>
    PeerSession.has_congr (by rw [TcpConnection.afterAck_receiveReady])
      (connection.afterAck_reassembly segment)
  cases hcall with
  | aborted _ rst => exact absurd (hseg.noRst.symm.trans rst) Bool.false_ne_true
  | unanswered _ _ state =>
      have hclosed := (h.closing.opening state).1
      exact absurd (hclosed.symm.trans h.established) Bool.false_ne_true
  | ignored _ _ state receives =>
      -- everything has arrived
      have hfins : history.peerFins = 1 := h.fins_eq_one receives state hreset
      have hall : (history.delivered ++ connection.receiveReady).length = session.stream.length :=
        (horder.fins_le.resolve_left (by omega)).2
      refine ⟨fun i hi => ?_, ?_, ?_, ?_⟩
      · have hin : session.Has history.delivered connection i := Or.inl (by omega)
        rw [hasack]
        exact (or_iff_left_of_imp fun _ => hin).symm
      · rwa [TcpConnection.stranded_of_receiveSide hside]
      · exact iff_of_true (Or.inr hfins) (Or.inl (Or.inr hfins))
      · rw [TcpConnection.pendingFinDue_afterAck]
        exact h.notDue
  | @received n mid _ _ receives payload =>
      refine ⟨fun i hi => ?_, ?_, horder.received_knowsFin hseg payload, ?_⟩
      · rw [PeerSession.has_congr (by
            rw [finishClose_receiveReady, consumePendingFin_receiveReady, processFin_receiveReady])
          ((congrArg TcpReceiveSide.reassembly (finishClose_receiveSide _)).trans
            ((consumePendingFin_reassembly _).trans (processFin_reassembly mid segment))),
          hack.payload_has (hb.afterAck segment) hseg payload hi, hasack]
      · rw [horder.received_stranded hb hseg payload]
        exact fun hstranded => hnone hstranded.1
      · rw [TcpConnection.pendingFinDue_congr (finishClose_receiveSide _),
          consumePendingFin_pendingFinDue]

/-- **One call** of the session keeps the connection complete. -/
theorem PeerSession.Complete.step {session : PeerSession} {world : TcpWorld} {ops : List TcpOp}
    (h : session.Complete world ops) {op : TcpOp} (hop : session.Accepts world op) :
    session.Complete (world.step op) (ops ++ [op]) := by
  obtain ⟨hallows, hreset, hresult⟩ := hop
  have horder := (PeerSession.Orderly.step ⟨h.closing.bounded, h.inOrder⟩ hallows).inOrder
  have hclosing := h.closing.step op
  by_cases hseg : ∃ segment, op = .onSegment segment
  · obtain ⟨segment, rfl⟩ := hseg
    obtain ⟨connection, history⟩ := world
    have hcall := onSegment_spec segment h.closing.bounded
    have hzero : (tcpConnectionOnSegment connection segment).1 = 0 := hresult segment rfl
    simp only [hzero] at hcall
    obtain ⟨hhas, hstranded, hfin, hdue⟩ := h.received hallows hreset hcall
    refine ⟨hclosing, ?_, horder, fun i hi => ?_, hstranded, ?_, hdue⟩
    · rw [TcpWorld.step_history, TcpHistory.record_onSegment, TcpHistory.received_established,
        h.established, Bool.true_or]
    · rw [PeerSession.arrived_append, ← h.has i hi, TcpWorld.step_history,
        TcpHistory.record_onSegment, TcpHistory.received_delivered]
      exact hhas i hi
    · rw [finArrived_append, ← h.knowsFin, TcpWorld.step_history, TcpHistory.record_onSegment,
        TcpHistory.received_peerFins]
      exact hfin
  · have hne : ∀ segment, op ≠ .onSegment segment := fun segment heq => hseg ⟨segment, heq⟩
    have hside : (world.step op).connection.receiveSide = world.connection.receiveSide :=
      TcpOp.receiveSide world.connection hne
    obtain ⟨hfins, hopen⟩ := world.history.record_peer world.connection hne hallows.ne_buildSyn
    have hsegments := TcpOp.segments_append_of_ne hne ops
    refine ⟨hclosing, hopen.trans h.established, horder, fun i hi => ?_, ?_, ?_, ?_⟩
    · rw [PeerSession.Arrived, hsegments, ← PeerSession.Arrived, ← h.has i hi]
      exact PeerSession.has_congr (world.step_bytes hne) (congrArg TcpReceiveSide.reassembly hside)
    · rw [TcpConnection.stranded_of_receiveSide hside]
      exact h.notStranded
    · rw [FinArrived, hsegments, ← FinArrived, ← h.knowsFin, TcpWorld.step_history, hfins,
        TcpConnection.KnowsFin, show (world.step op).connection.pendingFin =
          world.connection.pendingFin from congrArg TcpReceiveSide.pendingFin hside,
        ← TcpConnection.KnowsFin]
    · rw [TcpConnection.pendingFinDue_congr hside]
      exact h.notDue

/-! ### Runs -/

/-- Nothing has arrived and nothing is there, so that the two descriptions agree at the start of
a session. -/
theorem PeerSession.Blank.complete {session : PeerSession} {world : TcpWorld}
    (h : session.Blank world) : session.Complete world [] where
  closing := h.closing
  established := h.established
  inOrder := h.orderly.inOrder
  has i _ := by
    refine iff_of_false ?_ ?_
    · rintro (hlt | ⟨j, holds⟩)
      · rw [h.bytes] at hlt
        exact absurd hlt (Nat.not_lt_zero i)
      · exact absurd ((h.free j).symm.trans holds.1) Bool.false_ne_true
    · rintro ⟨segment, hmem, -⟩
      exact absurd hmem List.not_mem_nil
  notStranded := by
    rintro ⟨j, holds⟩
    exact absurd ((h.free j).symm.trans holds.1) Bool.false_ne_true
  knowsFin := by
    refine iff_of_false ?_ ?_
    · rintro (hpending | hfins)
      · exact absurd (h.noFin.symm.trans hpending) Bool.false_ne_true
      · exact absurd (h.fins.symm.trans hfins) Nat.zero_ne_one
    · rintro ⟨segment, hmem, -⟩
      exact absurd hmem List.not_mem_nil
  notDue := by rw [TcpConnection.pendingFinDue, h.noFin, Bool.false_and]

/-- The bytes in order are those before the first position that has not arrived. -/
theorem PeerSession.Complete.isGreatest {session : PeerSession} {world : TcpWorld}
    {ops : List TcpOp} (h : session.Complete world ops) :
    IsGreatest (coveredPrefixes session.stream.length (session.Arrived ops))
      world.inOrder.length := by
  have hle : world.inOrder.length ≤ session.stream.length := h.inOrder.length_le
  refine isGreatest_coveredPrefixes hle (fun i hi => ?_) fun hlt harrived => ?_
  · exact (h.has i (lt_of_lt_of_le hi hle)).1 (Or.inl hi)
  · rcases (h.has _ hlt).2 harrived with hin | ⟨j, holds⟩
    · exact absurd hin (Nat.lt_irrefl _)
    · have hfins : world.history.peerFins = 0 := by
        rcases h.inOrder.fins_le with hfins | ⟨-, hall⟩
        · exact hfins
        · exact absurd hall hlt.ne
      have hnext := h.inOrder.next
      rw [hfins, Nat.add_zero] at hnext
      exact h.notStranded ⟨j, by rw [hnext]; exact holds⟩

/-- The FIN is consumed when everything before it is in order and it has arrived. -/
theorem PeerSession.Complete.peer_iff {session : PeerSession} {world : TcpWorld}
    {ops : List TcpOp} (h : session.Complete world ops) :
    world.history.peerFins = 1 ↔
      world.inOrder.length = session.stream.length ∧ FinArrived ops := by
  constructor
  · intro hfins
    exact ⟨(h.inOrder.fins_le.resolve_left (by omega)).2, h.knowsFin.1 (Or.inr hfins)⟩
  · rintro ⟨hall, harrived⟩
    rcases h.knowsFin.2 harrived with hpending | hfins
    · rcases h.inOrder.fins_le with hfins | ⟨hfins, -⟩
      · -- a FIN pending at `receive_next` would be due
        exfalso
        have hnext := h.inOrder.next
        rw [hfins, Nat.add_zero, ← TcpWorld.inOrder, hall, ← h.inOrder.pending hpending] at hnext
        have hdue := h.notDue
        rw [TcpConnection.pendingFinDue, hpending, Bool.true_and, beq_eq_false_iff_ne] at hdue
        exact hdue hnext.symm
      · exact hfins
    · exact hfins

/-- Where the same segments of the same stream have arrived, the same is in order. -/
theorem PeerSession.Complete.unique {session other : PeerSession} {world world' : TcpWorld}
    {ops ops' : List TcpOp} (h : session.Complete world ops) (h' : other.Complete world' ops')
    (hstream : other.stream = session.stream)
    (hfirst : other.synAck.sequenceNumber = session.synAck.sequenceNumber)
    (hsame : ∀ segment, segment ∈ TcpOp.segments ops' ↔ segment ∈ TcpOp.segments ops) :
    world'.connection.receiveNext = world.connection.receiveNext ∧
      world'.inOrder = world.inOrder ∧ world'.history.peerFins = world.history.peerFins := by
  have hseq : ∀ i, other.sequenceAt i = session.sequenceAt i := fun i => by
    rw [PeerSession.sequenceAt, hfirst, PeerSession.sequenceAt]
  have harrived : ∀ i, other.Arrived ops' i ↔ session.Arrived ops i := by
    intro i
    unfold PeerSession.Arrived
    simp only [hsame, hseq]
  have hfin : FinArrived ops' ↔ FinArrived ops := by
    unfold FinArrived
    simp only [hsame]
  have hgreatest := h'.isGreatest
  rw [hstream, coveredPrefixes_congr harrived] at hgreatest
  have hlength := hgreatest.unique h.isGreatest
  have hbytes : world'.inOrder = world.inOrder := by
    have hprefix : world'.inOrder <+: session.stream := hstream ▸ h'.inOrder.bytes
    rw [List.prefix_iff_eq_take.1 hprefix, hlength]
    exact (List.prefix_iff_eq_take.1 h.inOrder.bytes).symm
  have hfins : world'.history.peerFins = world.history.peerFins := by
    have hiff : world'.history.peerFins = 1 ↔ world.history.peerFins = 1 := by
      rw [h'.peer_iff, h.peer_iff, hlength, hstream, hfin]
    rcases h.inOrder.fins_le with hzero | ⟨hone, -⟩ <;>
      rcases h'.inOrder.fins_le with hzero' | ⟨hone', -⟩ <;> omega
  refine ⟨?_, hbytes, hfins⟩
  rw [h'.inOrder.next, h.inOrder.next, hseq, ← TcpWorld.inOrder, ← TcpWorld.inOrder, hlength, hfins]

/-- The invariant along every run whose segments are accepted, from the step lemma. -/
theorem PeerSession.complete_run (session : PeerSession) (ops : List TcpOp)
    (h : Along TcpWorld.step session.Accepts session.start ops) :
    session.Complete (run TcpWorld.step session.start ops) ops :=
  h.run_invariant_trace (I := session.Complete) (fun _ _ _ hinv hop => hinv.step hop)
    session.start_blank.complete

/-- **Completeness and independence of order.**  When every segment of an honest peer was
accepted, the bytes in order are the longest beginning of the stream that has arrived,
and the FIN is consumed exactly if all of the stream and a FIN have arrived.  Any other
run that receives the same segments ends with the same `receive_next`, bytes and FIN. -/
theorem reassembly_complete (session : PeerSession) (ops : List TcpOp)
    (h : Along TcpWorld.step session.Accepts session.start ops) :
    let world := run TcpWorld.step session.start ops
    IsGreatest (coveredPrefixes session.stream.length (session.Arrived ops))
        world.inOrder.length ∧
      (world.history.peerFins = 1 ↔
        world.inOrder.length = session.stream.length ∧ FinArrived ops) ∧
      ∀ (other : PeerSession) (ops' : List TcpOp), other.stream = session.stream →
        other.synAck.sequenceNumber = session.synAck.sequenceNumber →
        Along TcpWorld.step other.Accepts other.start ops' →
        (∀ segment, segment ∈ TcpOp.segments ops' ↔ segment ∈ TcpOp.segments ops) →
        let world' := run TcpWorld.step other.start ops'
        world'.connection.receiveNext = world.connection.receiveNext ∧
          world'.inOrder = world.inOrder ∧
          world'.history.peerFins = world.history.peerFins := by
  intro world
  have hcomplete := session.complete_run ops h
  exact ⟨hcomplete.isGreatest, hcomplete.peer_iff, fun other ops' hstream hfirst h' hsame =>
    hcomplete.unique (other.complete_run ops' h') hstream hfirst hsame⟩

/-- Front and back of the stream, in this order and in the other. -/
theorem reassembly_complete_reordered :
    IsGreatest (coveredPrefixes 8 (PeerSession.test.Arrived reorderedOps))
        (run TcpWorld.step PeerSession.test.start reorderedOps).inOrder.length ∧
      (run TcpWorld.step PeerSession.test.start
          [.onSegment testFront, .onSegment testBack]).connection.receiveNext =
        (run TcpWorld.step PeerSession.test.start reorderedOps).connection.receiveNext := by
  have hreordered : Along TcpWorld.step PeerSession.test.Accepts PeerSession.test.start
      reorderedOps := by
    refine ⟨⟨testBack_honest, by decide +kernel, ?_⟩, ⟨trivial, by decide +kernel, ?_⟩,
      ⟨testFront_honest, by decide +kernel, ?_⟩, trivial⟩
    · rintro segment ⟨⟩
      decide +kernel
    · exact fun _ heq => absurd heq TcpOp.noConfusion
    · rintro segment ⟨⟩
      decide +kernel
  have hordered : Along TcpWorld.step PeerSession.test.Accepts PeerSession.test.start
      [.onSegment testFront, .onSegment testBack] := by
    refine ⟨⟨testFront_honest, by decide +kernel, ?_⟩, ⟨testBack_honest, by decide +kernel, ?_⟩,
      trivial⟩ <;>
      · rintro segment ⟨⟩
        decide +kernel
  obtain ⟨hgreatest, -, hsame⟩ := reassembly_complete PeerSession.test reorderedOps hreordered
  refine ⟨hgreatest, (hsame PeerSession.test _ rfl rfl hordered fun segment => ?_).1⟩
  show segment ∈ [testFront, testBack] ↔ segment ∈ [testBack, testFront]
  rw [List.mem_pair, List.mem_pair, or_comm]

end Netstack
