/-
# What stays behind in the reassembly queue

`promote_reassembly` leaves no slot that holds `receive_next`, unless the ready
buffer is full.  Then `tcp_connection_on_segment` returns `-2`, and the caller is
supposed to read and to try again.  But the segment whose promotion failed is old by
then, and `process_payload` returns before it promotes anything
(`Orderly.halfway_strands`).  So a slot that holds `receive_next` stays there until
another segment happens to hold `receive_next` as well: `Orderly.step_iff` decides it
for one call.
-/

import Netstack.TcpConnection.HonestPeer

namespace Netstack

open Relation (ReflTransGen)
open SerialNumber (dist InRange)
open Transition (run Along along_and along_of_forall along_congr)

/-- A used slot holds `receive_next`. -/
def TcpConnection.Stranded (connection : TcpConnection) : Prop :=
  ∃ i, (connection.reassembly i).Holds connection.receiveNext

instance (connection : TcpConnection) : Decidable connection.Stranded :=
  inferInstanceAs (Decidable (∃ i : SlotIndex,
    (connection.reassembly i).Holds connection.receiveNext))

/-- The states in which the peer may still send and `tcp_connection_on_segment` takes it. -/
def TcpConnectionState.awaitsData : TcpConnectionState → Bool
  | .established | .finWait1 | .finWait2 => true
  | .closed | .synSent | .closeWait | .lastAck | .timeWait | .reset => false

/-- A call with an empty ready buffer that returns 0 leaves no slot behind that holds
`receive_next`. -/
def TcpWorld.StrandsNothing (world : TcpWorld) (op : TcpOp) : Prop :=
  ∀ segment, op = .onSegment segment → world.connection.state.awaitsData = true →
    world.connection.receiveReady = [] →
    (tcpConnectionOnSegment world.connection segment).1 = 0 →
      ¬(tcpConnectionOnSegment world.connection segment).2.Stranded

/-- If an accepted segment meets an empty ready buffer and a slot that holds
`receive_next`, it holds `receive_next` itself. -/
def TcpWorld.PicksUp (world : TcpWorld) (op : TcpOp) : Prop :=
  ∀ segment, op = .onSegment segment → world.connection.state.awaitsData = true →
    world.connection.receiveReady = [] → world.connection.addressedBy segment = true →
    ¬world.connection.Refuses segment → world.connection.Stranded →
      segment.Holds world.connection.receiveNext

theorem TcpConnectionState.receives_of_awaitsData {state : TcpConnectionState}
    (h : state.awaitsData = true) : state.receives = true := by
  revert h
  cases state <;> decide

/-! ### The steps of a call -/

/-- Whether a slot is stranded is decided by the slots and `receive_next`. -/
theorem TcpConnection.stranded_congr {connection next : TcpConnection}
    (hslots : next.reassembly = connection.reassembly)
    (hnext : next.receiveNext = connection.receiveNext) :
    next.Stranded ↔ connection.Stranded := by
  unfold TcpConnection.Stranded
  rw [hslots, hnext]

theorem TcpConnection.stranded_of_receiveSide {connection next : TcpConnection}
    (h : next.receiveSide = connection.receiveSide) : next.Stranded ↔ connection.Stranded :=
  TcpConnection.stranded_congr (congrArg TcpReceiveSide.reassembly h)
    (congrArg TcpReceiveSide.receiveNext h)

/-- A promotion that settles leaves nothing behind. -/
theorem TcpConnection.Settled.not_stranded {connection : TcpConnection}
    (h : connection.Settled) (hb : connection.SlotsBounded) : ¬connection.Stranded := by
  rintro ⟨i, holds⟩
  obtain ⟨hpos, hlen⟩ := hb i holds.1
  have hmax : tcpReassemblySlotDataLen = 2048 := rfl
  have hbegins := ((inRange_iff_seq hpos (by omega)).1 holds.2).2
  exact absurd (hbegins.symm.trans (h i holds.1).1) Bool.false_ne_true

/-- A promotion that is blocked leaves the slot behind that did not fit. -/
theorem TcpConnection.Blocked.stranded {connection : TcpConnection}
    (h : connection.Blocked) : connection.Stranded := by
  obtain ⟨i, holds, -⟩ := h
  exact ⟨i, holds⟩

/-- A segment that is saved begins behind `receive_next`. -/
theorem TcpConnection.store_stranded {connection : TcpConnection} {i : SlotIndex}
    {segment : TcpSegment} (hfuture : segment.IsFuture connection.receiveNext)
    (hfree : (connection.reassembly i).used = false) :
    (connection.store i segment).Stranded ↔ connection.Stranded := by
  unfold TcpConnection.Stranded
  refine exists_congr fun j => ?_
  rw [TcpConnection.store_reassembly]
  split_ifs with hji
  · refine iff_of_false (fun h => hfuture.not_holds h.2) fun h => ?_
    rw [hji] at h
    exact absurd (hfree.symm.trans h.1) Bool.false_ne_true
  · exact Iff.rfl

section InOrder

variable {session : PeerSession} {delivered : List UInt8} {fins : ℕ} {connection : TcpConnection}

/-- A slot that holds `receive_next` holds a byte of the stream that has not arrived in
order. -/
theorem PeerSession.InOrder.of_stranded (h : session.InOrder delivered fins connection)
    (hstranded : connection.Stranded) : fins = 0 ∧
      (delivered ++ connection.receiveReady).length < session.stream.length := by
  obtain ⟨i, holds⟩ := hstranded
  obtain ⟨offset, hseq, hslice⟩ := h.slots i holds.1
  have hin := holds.2
  rw [hseq] at hin
  obtain ⟨hfins, -, hlt, hend⟩ := h.of_inRange hslice hin
  exact ⟨hfins, by omega⟩

/-- Where a FIN is consumed nothing is behind or ahead in the queue. -/
theorem PeerSession.InOrder.fin_not_stranded (h : session.InOrder delivered fins connection)
    {segment : TcpSegment} (hseg : session.Honest segment) {next : TcpConnection}
    (hstep : FinStep segment connection next) : ¬connection.Stranded ∧ ¬next.Stranded := by
  constructor
  · intro hstranded
    obtain ⟨-, hlt⟩ := h.of_stranded hstranded
    have hend := h.at_end (h.at_end_of_due hseg (by cases hstep with
      | pending due => exact Or.inl due
      | direct due => exact Or.inr due))
    omega
  · intro hstranded
    obtain ⟨hfins, -⟩ := (h.fin hseg hstep).of_stranded hstranded
    omega

/-- Consuming the FIN strands nothing: it is consumed at the end of the stream, behind which no
honest segment lies. -/
theorem PeerSession.InOrder.consumePendingFin_stranded
    (h : session.InOrder delivered fins connection) {segment : TcpSegment}
    (hseg : session.Honest segment) :
    (consumePendingFin connection).Stranded ↔ connection.Stranded := by
  rw [consumePendingFin_eq]
  split_ifs with hdue
  · obtain ⟨hbefore, hafter⟩ := h.fin_not_stranded hseg (.pending hdue)
    exact iff_of_false hafter hbefore
  · exact Iff.rfl

/-- The same for the FIN of the segment itself. -/
theorem PeerSession.InOrder.processFin_stranded (h : session.InOrder delivered fins connection)
    {segment : TcpSegment} (hseg : session.Honest segment) :
    (processFin connection segment).Stranded ↔ connection.Stranded := by
  rcases processFin_cases connection segment with
    ⟨hdue, heq⟩ | ⟨-, -, -, -, heq⟩ | ⟨-, heq, -⟩ <;> rw [heq]
  · obtain ⟨hbefore, hafter⟩ := h.fin_not_stranded hseg (.direct hdue)
    exact iff_of_false hafter hbefore
  · exact Iff.rfl

/-- **An accepted payload** leaves behind what it met and did not hold itself. -/
theorem PeerSession.InOrder.payload_stranded (h : session.InOrder delivered fins connection)
    (hb : connection.SlotsBounded) {segment : TcpSegment} (hseg : session.Honest segment)
    {mid : TcpConnection} {n : ℕ} (hpayload : Payload segment connection 0 n mid) :
    mid.Stranded ↔ connection.Stranded ∧ ¬segment.Holds connection.receiveNext := by
  have horder := h.path hseg hpayload.path
  cases hpayload with
  | old place => exact (and_iff_left place.not_holds).symm
  | covered place => exact (and_iff_left place.not_holds).symm
  | stored place short fresh free =>
      rw [TcpConnection.store_stranded place free]
      exact (and_iff_left place.not_holds).symm
  | @promoted last place room steps settled =>
      refine iff_of_false ?_ fun hnot => hnot.2 place
      have hpath := (ReceivePath.refl.step (.accept place room)).trans (.of_promote steps)
      rw [(h.path hseg hpath).consumePendingFin_stranded hseg]
      exact settled.not_stranded (hpath.slotsBounded hb)

/-- **An accepted call** leaves behind what it met and did not hold itself. -/
theorem PeerSession.InOrder.received_stranded (h : session.InOrder delivered fins connection)
    (hb : connection.SlotsBounded) {segment : TcpSegment} (hseg : session.Honest segment)
    {mid : TcpConnection} {n : ℕ}
    (hpayload : Payload segment (connection.afterAck segment) 0 n mid) :
    (finishClose (consumePendingFin (processFin mid segment))).Stranded ↔
      connection.Stranded ∧ ¬segment.Holds connection.receiveNext := by
  have hside := connection.afterAck_receiveSide segment
  have hack : session.InOrder delivered fins (connection.afterAck segment) :=
    h.congr (by rw [TcpConnection.afterAck_receiveReady]) hside
  have hmid := hack.path hseg hpayload.path
  rw [TcpConnection.stranded_of_receiveSide (finishClose_receiveSide _),
    (hmid.path hseg (processFin_path segment mid)).consumePendingFin_stranded hseg,
    hmid.processFin_stranded hseg, hack.payload_stranded (hb.afterAck segment) hseg hpayload,
    TcpConnection.stranded_of_receiveSide hside, TcpConnection.afterAck_receiveNext]

end InOrder

/-! ### One call -/

/-- One call strands nothing exactly when it picks up what it meets. -/
theorem PeerSession.Orderly.step_iff {session : PeerSession} {world : TcpWorld}
    (h : session.Orderly world) {op : TcpOp} (hop : session.Allows op) :
    world.StrandsNothing op ↔ world.PicksUp op := by
  refine forall_congr' fun segment => forall_congr' fun heq => forall_congr' fun hstate =>
    forall_congr' fun _ => ?_
  subst heq
  have hseg : session.Honest segment := hop
  have hrec := TcpConnectionState.receives_of_awaitsData hstate
  have hcall := onSegment_spec segment h.bounded
  generalize (tcpConnectionOnSegment world.connection segment).1 = result,
    onSegmentFins world.connection segment = n,
    (tcpConnectionOnSegment world.connection segment).2 = last at hcall ⊢
  cases hcall with
  | misaddressed ports =>
      exact iff_of_true (fun hres => absurd hres (by decide)) fun hports =>
        absurd (ports.symm.trans hports) Bool.false_ne_true
  | aborted _ rst => exact absurd (hseg.noRst.symm.trans rst) Bool.false_ne_true
  | unanswered _ _ state | mismatched _ _ state | opened _ _ state =>
      exact absurd state (TcpConnectionState.ne_synSent_of_receives hrec)
  | ignored _ _ _ receives => exact absurd (receives.symm.trans hrec) Bool.false_ne_true
  | refused _ _ _ payload =>
      have hrefuses := TcpConnection.refuses_afterAck.1
        ((payload.refused_iff (h.bounded.afterAck segment)).1 rfl)
      exact iff_of_true (fun hres => absurd hres (by decide)) fun _ hnot => absurd hrefuses hnot
  | received ports _ _ payload =>
      have haccepted : ¬world.connection.Refuses segment := fun hrefuses =>
        absurd ((payload.refused_iff (h.bounded.afterAck segment)).2
          (TcpConnection.refuses_afterAck.2 hrefuses)) (by decide)
      rw [h.inOrder.received_stranded h.bounded hseg payload, not_and_not_right]
      exact ⟨fun hno _ _ hstranded => hno rfl hstranded,
        fun hno _ hstranded => hno ports haccepted hstranded⟩

/-! ### A refusal that stopped halfway -/

/-- What promotion left behind a delivered segment begins no earlier than its end, so
the segment is old by then. -/
theorem Promoted.isOld {segment : TcpSegment} {connection last : TcpConnection} {d : ℕ}
    (h : Promoted (connection.deliver (segment.bytesFrom connection.receiveNext)) last d)
    (holds : segment.Holds connection.receiveNext) : segment.IsOld last.receiveNext := by
  have hcap := h.le_capacity
  refine Or.inr ?_
  rw [seqLe_iff, h.receiveNext, TcpConnection.deliver_receiveNext holds,
    SerialNumber.dist_add_right (by rw [SerialNumber.dist_self]; omega), SerialNumber.dist_self]
  omega

/-- A payload that was delivered before promotion ran out of room is old, and a slot
that holds `receive_next` is left. -/
theorem Payload.halfway {segment : TcpSegment} {connection last : TcpConnection} {n : ℕ}
    (h : Payload segment connection (-1) n last) (htakes : connection.Takes segment) :
    last.Stranded ∧ segment.IsOld last.receiveNext ∧
      last.receiveReady.length ≤ tcpReceiveReadyCapacity := by
  rcases h.idle_or_delivered with ⟨hnot, -⟩ | ⟨-, promoted, d, hd, ⟨-, -, rfl, hblocked⟩ | ⟨hres, -⟩⟩
  · exact absurd htakes hnot
  · exact ⟨hblocked.stranded, hd.isOld htakes.1, hd.room⟩
  · exact absurd hres (by decide)

/-- A payload that was refused before any of it was delivered leaves the connection as
it was. -/
theorem Payload.unchanged {segment : TcpSegment} {connection last : TcpConnection} {n : ℕ}
    (h : Payload segment connection (-1) n last) (htakes : ¬connection.Takes segment) :
    last = connection := by
  cases h with
  | full | overflow => rfl
  | blocked place room => exact absurd ⟨place, room⟩ htakes

/-- The port check is about the send side. -/
theorem TcpConnection.addressedBy_congr {connection next : TcpConnection}
    (h : next.sendSide = connection.sendSide) (segment : TcpSegment) :
    next.addressedBy segment = connection.addressedBy segment := by
  rw [TcpConnection.addressedBy, TcpConnection.addressedBy,
    show next.remotePort = connection.remotePort from congrArg TcpSendSide.remotePort h,
    show next.localPort = connection.localPort from congrArg TcpSendSide.localPort h]

theorem TcpConnection.addressedBy_afterAck (connection : TcpConnection) (segment : TcpSegment) :
    (connection.afterAck segment).addressedBy segment = connection.addressedBy segment := by
  rw [TcpConnection.afterAck_eq]
  split_ifs <;> rfl

/-- **A refused call** found the ports and the state right and its payload refused, and
leaves what `process_payload` left. -/
theorem OnSegment.refusal {segment : TcpSegment} {connection last : TcpConnection} {n : ℕ}
    (h : OnSegment segment connection (-2) n last) :
    connection.addressedBy segment = true ∧ connection.state.receives = true ∧
      Payload segment (connection.afterAck segment) (-1) n last ∧
      last.state = connection.state ∧
      last.addressedBy segment = true := by
  cases h with
  | refused ports _ receives payload =>
      have hpath := payload.path
      obtain rfl := payload.fins_of_refused
      refine ⟨ports, receives, payload, ?_, ?_⟩
      · exact hpath.state.trans (TcpConnection.afterAck_state ..)
      · rw [TcpConnection.addressedBy_congr hpath.sendSide, TcpConnection.addressedBy_afterAck, ports]

/-- A call with a segment other than an RST is refused exactly if the connection refuses
its payload. -/
theorem onSegment_refused_iff {segment : TcpSegment} {connection : TcpConnection}
    (hb : connection.SlotsBounded) (hrst : segment.hasFlag tcpFlagRst = false) :
    (tcpConnectionOnSegment connection segment).1 = -2 ↔
      connection.addressedBy segment = true ∧ connection.state.receives = true ∧
        connection.Refuses segment := by
  have hcall := onSegment_spec segment hb
  generalize (tcpConnectionOnSegment connection segment).1 = result,
    onSegmentFins connection segment = n,
    (tcpConnectionOnSegment connection segment).2 = last at hcall ⊢
  cases hcall with
  | misaddressed ports =>
      exact iff_of_false (by decide) fun h => absurd (ports.symm.trans h.1) Bool.false_ne_true
  | aborted _ rst => exact absurd (hrst.symm.trans rst) Bool.false_ne_true
  | unanswered _ _ state | mismatched _ _ state | opened _ _ state =>
      exact iff_of_false (by decide) fun h =>
        TcpConnectionState.ne_synSent_of_receives h.2.1 state
  | ignored _ _ _ receives =>
      exact iff_of_false (by decide) fun h => absurd (receives.symm.trans h.2.1) Bool.false_ne_true
  | refused ports _ receives payload =>
      exact iff_of_true rfl ⟨ports, receives,
        TcpConnection.refuses_afterAck.1 ((payload.refused_iff (hb.afterAck segment)).1 rfl)⟩
  | received _ _ _ payload =>
      refine iff_of_false (by decide) fun h => ?_
      exact absurd ((payload.refused_iff (hb.afterAck segment)).2
        (TcpConnection.refuses_afterAck.2 h.2.2)) (by decide)

/-- **Reading and trying again does not help.**  After a refusal that came halfway, the
same segment is accepted with an empty ready buffer and leaves the slot behind. -/
theorem PeerSession.Orderly.halfway_strands {session : PeerSession} {world : TcpWorld}
    (h : session.Orderly world) {segment : TcpSegment} (hseg : session.Honest segment)
    (hports : world.connection.addressedBy segment = true)
    (hstate : world.connection.state.awaitsData = true)
    (htakes : world.connection.Takes segment) (hrefuses : world.connection.Refuses segment)
    {len : ℕ} (hlen : tcpReceiveReadyCapacity ≤ len) :
    ¬((world.step (.onSegment segment)).step (.read len)).StrandsNothing (.onSegment segment) := by
  have hagain : session.Allows (.onSegment segment) := hseg
  have hreads : session.Allows (.read len) := trivial
  have horder := (h.step hagain).step hreads
  have hcall := onSegment_spec segment h.bounded
  rw [(onSegment_refused_iff h.bounded hseg.noRst).2
    ⟨hports, TcpConnectionState.receives_of_awaitsData hstate, hrefuses⟩] at hcall
  obtain ⟨-, -, payload, hsame, hports⟩ := hcall.refusal
  obtain ⟨hstranded, hold, hroom⟩ := payload.halfway (TcpConnection.takes_afterAck.2 htakes)
  have hread : ((world.step (.onSegment segment)).step (.read len)).connection =
      { (tcpConnectionOnSegment world.connection segment).2 with
        receiveReady :=
          (tcpConnectionOnSegment world.connection segment).2.receiveReady.drop len } := by
    rw [TcpWorld.step_connection, TcpOp.effect, read_eq, TcpWorld.step_connection, TcpOp.effect]
  rw [horder.step_iff hagain]
  intro hpicks
  have hholds := hpicks segment rfl
  rw [hread] at hholds
  refine hold.not_holds (hholds (by rw [← hstate, ← hsame])
    (List.drop_eq_nil_of_le (hroom.trans hlen)) hports ?_ hstranded)
  rintro (⟨hfuture, -⟩ | ⟨hholds, -⟩)
  · exact hold.not_isFuture hfuture
  · exact hold.not_holds hholds

end Netstack
