/-
# The stream of an honest peer

`PeerSession` is a session as the user of the connection meets it: an accepted
handshake and the byte stream that the peer is going to send.  An honest segment
carries what the stream holds at its sequence number, and a FIN only at the end of
the stream.  Nothing is said about the order of the segments, how often they come,
where they are cut or what the connection answers.

`PeerSession.InOrder` is the invariant behind everything in this file and the ones
that follow: what was read and what is ready to be read is a beginning of the
stream, `receive_next` is the position behind it, every slot holds a slice of the
stream, and a pending FIN is pending at its end.  Every step of a receive path keeps
it (`InOrder.step`, `InOrder.fin`), whatever the step's place in the call, so it
survives the calls that are refused halfway as well.
-/

import Netstack.Library.Stream
import Netstack.TcpConnection.CloseStates
import Netstack.TcpConnection.Reach

namespace Netstack

open SerialNumber (InRange)
open Stream (Slice)
open Transition (run Always)

/-- A completed handshake with a peer that is going to send `stream`. -/
structure PeerSession where
  localPort : BitVec 16
  remotePort : BitVec 16
  initialSequence : BitVec 32
  window : BitVec 16
  synAck : TcpSegment
  stream : List UInt8
  /-- the stream and its FIN occupy less than half of the sequence space -/
  stream_lt : stream.length + 1 < 2 ^ 31
  synAck_payload : synAck.payload = []
  /-- `tcp_connection_on_segment` takes the SYN-ACK for the SYN that was built -/
  accepted : (tcpConnectionOnSegment (tcpConnectionBuildSyn
    (tcpConnectionInit localPort remotePort initialSequence) window).connection synAck).1 = 1

/-- The connection and its history after the handshake. -/
def PeerSession.start (session : PeerSession) : TcpWorld :=
  run TcpWorld.step (.init session.localPort session.remotePort session.initialSequence)
    [.buildSyn session.window, .onSegment session.synAck]

/-- The sequence number of the byte at `offset` of the stream. -/
def PeerSession.sequenceAt (session : PeerSession) (offset : ℕ) : BitVec 32 :=
  session.synAck.sequenceNumber + 1 + BitVec.ofNat 32 offset

/-- The segment carries what the stream holds at its sequence number, and a FIN only at
the end of the stream. -/
structure PeerSession.Honest (session : PeerSession) (segment : TcpSegment) : Prop where
  noRst : segment.hasFlag tcpFlagRst = false
  noSyn : segment.hasFlag tcpFlagSyn = false
  slice : ∃ offset, segment.sequenceNumber = session.sequenceAt offset ∧
    Slice session.stream offset segment.payload ∧
    (segment.hasFlag tcpFlagFin = true → offset + segment.payload.length = session.stream.length)

/-- A call of the session: every incoming segment is honest, and no second SYN is
built. -/
def PeerSession.Allows (session : PeerSession) : TcpOp → Prop
  | .buildSyn _ => False
  | .onSegment segment => session.Honest segment
  | .buildAck _ | .buildData _ _ | .buildFin _ | .tick _ | .read _ => True

/-- What was read and what is ready is a beginning of the stream of length `k`, and
`receive_next` is the position behind it, or behind the FIN if that was consumed. -/
def PeerSession.Safe (session : PeerSession) (world : TcpWorld) : Prop :=
  ∃ k ≤ session.stream.length,
    world.history.delivered ++ world.connection.receiveReady = session.stream.take k ∧
      (world.history.peerFins = 0 ∧ world.connection.receiveNext = session.sequenceAt k ∨
        world.history.peerFins = 1 ∧ k = session.stream.length ∧
          world.connection.receiveNext = session.sequenceAt (k + 1))

/-! ### Positions in the stream -/

section Position

variable (session : PeerSession)

theorem PeerSession.sequenceAt_add (i j : ℕ) :
    session.sequenceAt (i + j) = session.sequenceAt i + BitVec.ofNat 32 j :=
  (SerialNumber.add_ofNat_add ..).symm

variable {session}

/-- Positions of the stream and of its FIN are told apart by their sequence numbers, because the
stream is shorter than half of the sequence space. -/
theorem PeerSession.sequenceAt_inj {i j : ℕ} (hi : i ≤ session.stream.length + 1)
    (hj : j ≤ session.stream.length + 1) :
    session.sequenceAt i = session.sequenceAt j ↔ i = j := by
  have hlen := session.stream_lt
  exact SerialNumber.offset_inj (by omega) (by omega)

/-- The payload begins at a position of the stream and is what the stream holds there. -/
def PeerSession.IsSlice (session : PeerSession) (sequenceNumber : BitVec 32)
    (payload : List UInt8) : Prop :=
  ∃ offset, sequenceNumber = session.sequenceAt offset ∧ Slice session.stream offset payload

theorem PeerSession.Honest.isSlice {segment : TcpSegment} (h : session.Honest segment) :
    session.IsSlice segment.sequenceNumber segment.payload := by
  obtain ⟨offset, hseq, hslice, -⟩ := h.slice
  exact ⟨offset, hseq, hslice⟩

/-- A FIN of an honest peer is at the end of the stream. -/
theorem PeerSession.Honest.fin {segment : TcpSegment} (h : session.Honest segment)
    (hfin : segment.hasFlag tcpFlagFin = true) :
    segment.payloadEnd = session.sequenceAt session.stream.length := by
  obtain ⟨offset, hseq, -, hend⟩ := h.slice
  rw [TcpSegment.payloadEnd, hseq, ← session.sequenceAt_add, hend hfin]

/-- An honest segment is no SYN-ACK. -/
theorem PeerSession.Honest.isSynAck {segment : TcpSegment} (h : session.Honest segment) :
    segment.isSynAck = false := by
  have hsyn := h.noSyn
  unfold TcpSegment.hasFlag at hsyn
  rw [bne_eq_false_iff_eq] at hsyn
  rw [TcpSegment.isSynAck, beq_eq_false_iff_ne]
  intro hboth
  have hflag : segment.flags &&& (tcpFlagSyn ||| tcpFlagAck) &&& tcpFlagSyn = 0 := by
    rw [BitVec.and_comm segment.flags, BitVec.and_assoc, hsyn]
    exact BitVec.and_zero
  rw [hboth] at hflag
  exact absurd hflag (by decide)

/-- Where a slice holds a position of the stream. -/
theorem PeerSession.inRange_iff {offset i : ℕ} {payload : List UInt8}
    (h : Slice session.stream offset payload) (hne : payload ≠ [])
    (hi : i ≤ session.stream.length + 1) :
    InRange (session.sequenceAt offset) payload.length (session.sequenceAt i) ↔
      offset ≤ i ∧ i < offset + payload.length := by
  have hend := h.end_le hne
  have hlen := session.stream_lt
  exact SerialNumber.inRange_offset_iff (by omega) (by omega)

end Position

/-! ### The invariant -/

/-- Reception is in order: `delivered` is what was read, `fins` the number of FINs of
the peer consumed. -/
structure PeerSession.InOrder (session : PeerSession) (delivered : List UInt8) (fins : ℕ)
    (connection : TcpConnection) : Prop where
  bytes : delivered ++ connection.receiveReady <+: session.stream
  next : connection.receiveNext =
    session.sequenceAt ((delivered ++ connection.receiveReady).length + fins)
  fins_le : fins = 0 ∨
    fins = 1 ∧ (delivered ++ connection.receiveReady).length = session.stream.length
  slots : ∀ i, (connection.reassembly i).used = true →
    session.IsSlice (connection.reassembly i).sequenceNumber (connection.reassembly i).payload
  pending : connection.pendingFin = true →
    connection.pendingFinSequence = session.sequenceAt session.stream.length

section InOrder

variable {session : PeerSession} {delivered : List UInt8} {fins : ℕ} {connection : TcpConnection}

theorem PeerSession.InOrder.length_le (h : session.InOrder delivered fins connection) :
    (delivered ++ connection.receiveReady).length ≤ session.stream.length := h.bytes.length_le

/-- `receive_next` is the end of the stream or its FIN, or before both. -/
theorem PeerSession.InOrder.add_fins_le (h : session.InOrder delivered fins connection) :
    (delivered ++ connection.receiveReady).length + fins ≤ session.stream.length + 1 := by
  have hle := h.length_le
  rcases h.fins_le with hfins | ⟨hfins, -⟩ <;> omega

/-- Where `receive_next` lies in a slice, no FIN was consumed. -/
theorem PeerSession.InOrder.of_inRange (h : session.InOrder delivered fins connection)
    {offset : ℕ} {payload : List UInt8} (hslice : Slice session.stream offset payload)
    (hin : InRange (session.sequenceAt offset) payload.length connection.receiveNext) :
    fins = 0 ∧ offset ≤ (delivered ++ connection.receiveReady).length ∧
      (delivered ++ connection.receiveReady).length < offset + payload.length ∧
      offset + payload.length ≤ session.stream.length := by
  have hne : payload ≠ [] := by
    rintro rfl
    exact SerialNumber.not_inRange_zero _ _ hin
  have hend := hslice.end_le hne
  rw [h.next, PeerSession.inRange_iff hslice hne h.add_fins_le] at hin
  rcases h.fins_le with hfins | ⟨hfins, hall⟩
  · exact ⟨hfins, by omega, by omega, hend⟩
  · omega

/-- **A delivery.**  The bytes of a slice from `receive_next` on continue what is in
order. -/
theorem PeerSession.InOrder.deliver (h : session.InOrder delivered fins connection)
    {sequenceNumber : BitVec 32} {payload : List UInt8}
    (hslice : session.IsSlice sequenceNumber payload)
    (hin : InRange sequenceNumber payload.length connection.receiveNext) :
    session.InOrder delivered fins
      (connection.deliver (bytesFrom sequenceNumber payload connection.receiveNext)) := by
  obtain ⟨offset, rfl, hslice⟩ := hslice
  obtain ⟨rfl, hle, hlt, hend⟩ := h.of_inRange hslice hin
  have hlen := session.stream_lt
  have hnext := h.next
  have hbytes := h.bytes
  -- the part of the slice that is new
  have hskip : (connection.receiveNext - session.sequenceAt offset).toNat =
      (delivered ++ connection.receiveReady).length - offset := by
    rw [hnext, Nat.add_zero]
    exact SerialNumber.toNat_sub_offset hle (by omega)
  have hfresh : bytesFrom (session.sequenceAt offset) payload connection.receiveNext =
      payload.drop ((delivered ++ connection.receiveReady).length - offset) := by
    rw [bytesFrom, hskip]
  have hall := hslice.append_prefix hbytes hle
  rw [List.append_assoc] at hall
  rw [hfresh]
  refine ⟨hall, ?_, Or.inl rfl, h.slots, h.pending⟩
  show connection.receiveNext + BitVec.ofNat 32 _ = session.sequenceAt _
  rw [hnext, ← session.sequenceAt_add, Nat.add_zero, Nat.add_zero, TcpConnection.deliver,
    ← List.append_assoc, @List.length_append _ (delivered ++ connection.receiveReady)]

/-- Reading, and what the slots hold beside slices of the stream, is all the same to the
order. -/
theorem PeerSession.InOrder.of_slots (h : session.InOrder delivered fins connection)
    {read : List UInt8} {next : TcpConnection}
    (hbytes : read ++ next.receiveReady = delivered ++ connection.receiveReady)
    (hnext : next.receiveNext = connection.receiveNext)
    (hpending : next.pendingFin = connection.pendingFin ∧
      next.pendingFinSequence = connection.pendingFinSequence)
    (hslots : ∀ i, (next.reassembly i).used = true →
      session.IsSlice (next.reassembly i).sequenceNumber (next.reassembly i).payload) :
    session.InOrder read fins next where
  bytes := hbytes ▸ h.bytes
  next := by rw [hnext, hbytes, h.next]
  fins_le := hbytes ▸ h.fins_le
  slots := hslots
  pending := by
    rw [hpending.1, hpending.2]
    exact h.pending

/-- The order is about the receive side and the bytes in front of it. -/
theorem PeerSession.InOrder.congr (h : session.InOrder delivered fins connection)
    {read : List UInt8} {next : TcpConnection}
    (hbytes : read ++ next.receiveReady = delivered ++ connection.receiveReady)
    (hside : next.receiveSide = connection.receiveSide) : session.InOrder read fins next := by
  have hslots : next.reassembly = connection.reassembly :=
    congrArg TcpReceiveSide.reassembly hside
  exact h.of_slots hbytes (congrArg TcpReceiveSide.receiveNext hside)
    ⟨congrArg TcpReceiveSide.pendingFin hside, congrArg TcpReceiveSide.pendingFinSequence hside⟩
    (hslots ▸ h.slots)

/-- Emptying a slot keeps the receiver in order: the invariant speaks of used slots only. -/
theorem PeerSession.InOrder.removeReassemblySlot (h : session.InOrder delivered fins connection)
    (i : SlotIndex) : session.InOrder delivered fins (removeReassemblySlot connection i) := by
  refine h.of_slots (by rw [removeReassemblySlot_receiveReady])
    (removeReassemblySlot_receiveNext ..) (removeReassemblySlot_pending ..) fun j hj => ?_
  by_cases hi : (connection.reassembly i).used = true
  · rw [removeReassemblySlot_reassembly hi] at hj ⊢
    split_ifs at hj ⊢ with hji
    · exact absurd hj Bool.false_ne_true
    · exact h.slots j hj
  · unfold Netstack.removeReassemblySlot at hj ⊢
    rw [if_pos (by simpa using hi)] at hj ⊢
    exact h.slots j hj

/-- **One step of reception** keeps the order. -/
theorem PeerSession.InOrder.step (h : session.InOrder delivered fins connection)
    {segment : TcpSegment} (hseg : session.Honest segment) {next : TcpConnection}
    (hstep : ReceiveStep segment connection next) : session.InOrder delivered fins next := by
  cases hstep with
  | accept holds room => exact h.deliver hseg.isSlice holds
  | @buffer i future short fresh free =>
      refine h.of_slots rfl rfl ⟨rfl, rfl⟩ fun j hj => ?_
      rw [TcpConnection.store_reassembly] at hj ⊢
      split_ifs at hj ⊢
      · exact hseg.isSlice
      · exact h.slots j hj
  | promote step =>
      cases step with
      | discard used received => exact h.removeReassemblySlot _
      | deliver holds room =>
          exact (h.deliver (h.slots _ holds.1) holds.2).removeReassemblySlot _
  | remember fin ahead first =>
      exact ⟨h.bytes, h.next, h.fins_le, h.slots, fun _ => hseg.fin fin⟩

/-- At the end of the stream, where a FIN is due, everything has arrived and no FIN has
been consumed. -/
theorem PeerSession.InOrder.at_end (h : session.InOrder delivered fins connection)
    (hend : connection.receiveNext = session.sequenceAt session.stream.length) :
    fins = 0 ∧ (delivered ++ connection.receiveReady).length = session.stream.length := by
  rw [h.next, PeerSession.sequenceAt_inj h.add_fins_le (Nat.le_succ _)] at hend
  rcases h.fins_le with hfins | ⟨hfins, hall⟩ <;> omega

/-- A FIN is due at the end of the stream and nowhere else: an honest FIN has the sequence number
behind the last byte, and positions are told apart by their numbers. -/
theorem PeerSession.InOrder.at_end_of_due {segment : TcpSegment}
    (h : session.InOrder delivered fins connection) (hseg : session.Honest segment)
    (hdue : connection.pendingFinDue = true ∨ connection.finDue segment = true) :
    connection.receiveNext = session.sequenceAt session.stream.length := by
  rcases hdue with hdue | hdue
  · rw [TcpConnection.pendingFinDue, Bool.and_eq_true, beq_iff_eq] at hdue
    rw [← hdue.2, h.pending hdue.1]
  · rw [TcpConnection.finDue, Bool.and_eq_true, beq_iff_eq] at hdue
    rw [← hdue.2, hseg.fin hdue.1]

/-- **A consumed FIN** is the one at the end of the stream. -/
theorem PeerSession.InOrder.fin (h : session.InOrder delivered fins connection)
    {segment : TcpSegment} (hseg : session.Honest segment) {next : TcpConnection}
    (hstep : FinStep segment connection next) : session.InOrder delivered (fins + 1) next := by
  have hend : connection.receiveNext = session.sequenceAt session.stream.length :=
    h.at_end_of_due hseg (by cases hstep with
      | pending due => exact Or.inl due
      | direct due => exact Or.inr due)
  obtain ⟨rfl, hall⟩ := h.at_end hend
  have hnext : connection.receiveNext + 1 =
      session.sequenceAt ((delivered ++ connection.receiveReady).length + (0 + 1)) := by
    rw [hall, hend]
    exact (session.sequenceAt_add ..).symm
  cases hstep with
  | pending due =>
      exact ⟨h.bytes, hnext, Or.inr ⟨rfl, hall⟩, h.slots, fun hp => absurd hp Bool.false_ne_true⟩
  | direct due => exact ⟨h.bytes, hnext, Or.inr ⟨rfl, hall⟩, h.slots, h.pending⟩

/-- A receive path keeps the order. -/
theorem PeerSession.InOrder.path (h : session.InOrder delivered fins connection)
    {segment : TcpSegment} (hseg : session.Honest segment) {last : TcpConnection} {n : ℕ}
    (hpath : ReceivePath segment connection n last) :
    session.InOrder delivered (fins + n) last :=
  hpath.invariant (P := fun n c => session.InOrder delivered (fins + n) c)
    (fun _ _ _ hP hs => hP.step hseg hs) (fun _ _ _ hP hs => hP.fin hseg hs) h

/-- An incoming segment keeps the order, whatever the connection answers. -/
theorem PeerSession.InOrder.onSegment (h : session.InOrder delivered fins connection)
    {segment : TcpSegment} (hseg : session.Honest segment) {last : TcpConnection} {result : ℤ}
    {n : ℕ} (hcall : OnSegment segment connection result n last) :
    session.InOrder delivered (fins + n) last := by
  have hack : session.InOrder delivered fins (connection.afterAck segment) :=
    h.congr (by rw [TcpConnection.afterAck_receiveReady]) (connection.afterAck_receiveSide segment)
  cases hcall with
  | misaddressed => exact h
  | aborted _ rst => exact absurd (hseg.noRst.symm.trans rst) Bool.false_ne_true
  | unanswered | mismatched | ignored => exact hack
  | opened _ _ _ synAck => exact absurd (hseg.isSynAck.symm.trans synAck) Bool.false_ne_true
  | refused _ _ _ payload => exact hack.path hseg payload.path
  | received _ _ _ payload =>
      exact (hack.path hseg payload.received_path).congr (by rw [finishClose_receiveReady])
        (finishClose_receiveSide _)

end InOrder

/-! ### One call -/

/-- A call that is not about an incoming segment moves bytes from the ready buffer to
their reader at most. -/
theorem TcpWorld.step_bytes (world : TcpWorld) {op : TcpOp}
    (hop : ∀ segment, op ≠ .onSegment segment) :
    (world.step op).history.delivered ++ (world.step op).connection.receiveReady =
      world.history.delivered ++ world.connection.receiveReady := by
  obtain ⟨connection, history⟩ := world
  cases op with
  | buildSyn window =>
      rcases buildSyn_cases connection window with ⟨-, heq⟩ | ⟨-, segment, -, heq⟩
      · simp only [TcpWorld.step, TcpOp.effect, TcpHistory.record, heq]
      · simp only [TcpWorld.step, TcpOp.effect, TcpHistory.record, heq]
        rfl
  | onSegment segment => exact absurd rfl (hop segment)
  | buildAck => rfl
  | buildData payload window =>
      rcases buildData_cases connection payload window with ⟨-, heq⟩ | ⟨-, -, segment, -, heq⟩
      · simp only [TcpWorld.step, TcpOp.effect, TcpHistory.record, heq]
      · simp only [TcpWorld.step, TcpOp.effect, TcpHistory.record, heq]
        rfl
  | buildFin window =>
      rcases buildFin_cases connection window with ⟨-, -, heq⟩ | ⟨_, -, segment, -, heq⟩
      · simp only [TcpWorld.step, TcpOp.effect, TcpHistory.record, heq]
      · simp only [TcpWorld.step, TcpOp.effect, TcpHistory.record, heq]
        rfl
  | tick elapsedMs =>
      rcases tick_connection connection elapsedMs with ⟨_, _, _, heq⟩ | ⟨_, heq⟩ <;>
        simp only [TcpWorld.step, TcpOp.effect, TcpHistory.record, heq] <;> rfl
  | read bufferLen =>
      simp only [TcpWorld.step, TcpOp.effect, TcpHistory.record, read_eq]
      rw [List.append_assoc, List.take_append_drop]

/-- Beside the SYN only incoming segments say anything about FINs of the peer and the
handshake. -/
theorem TcpHistory.record_peer (history : TcpHistory) (connection : TcpConnection) {op : TcpOp}
    (hop : ∀ segment, op ≠ .onSegment segment) (hsyn : ∀ window, op ≠ .buildSyn window) :
    (history.record connection op).peerFins = history.peerFins ∧
      (history.record connection op).established = history.established := by
  cases op with
  | buildSyn window => exact absurd rfl (hsyn window)
  | onSegment segment => exact absurd rfl (hop segment)
  | buildAck | tick | read => exact ⟨rfl, rfl⟩
  | buildData payload window =>
      rcases buildData_cases connection payload window with ⟨-, heq⟩ | ⟨-, -, segment, -, heq⟩ <;>
        simp only [TcpHistory.record, heq, TcpHistory.send, and_self]
  | buildFin window =>
      rcases buildFin_cases connection window with ⟨-, -, heq⟩ | ⟨_, -, segment, -, heq⟩ <;>
        simp only [TcpHistory.record, heq, TcpHistory.send, and_self]

/-- What carries the induction over the run of a session. -/
structure PeerSession.Orderly (session : PeerSession) (world : TcpWorld) : Prop where
  bounded : world.connection.SlotsBounded
  inOrder : session.InOrder world.history.delivered world.history.peerFins world.connection

theorem PeerSession.Allows.ne_buildSyn {session : PeerSession} {op : TcpOp}
    (h : session.Allows op) (window : BitVec 16) : op ≠ .buildSyn window := by
  rintro rfl
  exact h

/-- The step lemma of the session: an honest segment is processed in order, and no other call
touches the receive side, but for a read, which moves bytes to the caller. -/
theorem PeerSession.Orderly.step {session : PeerSession} {world : TcpWorld}
    (h : session.Orderly world) {op : TcpOp} (hop : session.Allows op) :
    session.Orderly (world.step op) := by
  refine ⟨op.slotsBounded h.bounded, ?_⟩
  by_cases hseg : ∃ segment, op = .onSegment segment
  · obtain ⟨segment, rfl⟩ := hseg
    rw [TcpWorld.step_history, TcpHistory.record_onSegment, TcpHistory.received_delivered,
      TcpHistory.received_peerFins]
    exact h.inOrder.onSegment hop (onSegment_spec segment h.bounded)
  · have hne : ∀ segment, op ≠ .onSegment segment := fun segment heq => hseg ⟨segment, heq⟩
    have hpeer := world.history.record_peer world.connection hne hop.ne_buildSyn
    rw [TcpWorld.step_history, hpeer.1]
    exact h.inOrder.congr (world.step_bytes hne) (TcpOp.receiveSide _ hne)

/-- What the invariant says about the bytes: they are a beginning of the stream, and a FIN was
consumed only behind all of it. -/
theorem PeerSession.InOrder.safe {session : PeerSession} {world : TcpWorld}
    (h : session.InOrder world.history.delivered world.history.peerFins world.connection) :
    session.Safe world := by
  refine ⟨_, h.length_le, List.prefix_iff_eq_take.1 h.bytes, ?_⟩
  have hnext := h.next
  rcases h.fins_le with hfins | ⟨hfins, hall⟩ <;> rw [hfins] at hnext
  · exact Or.inl ⟨hfins, hnext⟩
  · exact Or.inr ⟨hfins, hall, hnext⟩

/-! ### The handshake -/

/-- Only the handshake returns 1. -/
theorem OnSegment.opened_of_result {segment : TcpSegment} {connection last : TcpConnection}
    {result : ℤ} {n : ℕ} (h : OnSegment segment connection result n last) (hone : result = 1) :
    n = 0 ∧ last = (connection.afterAck segment).opened segment := by
  cases h with
  | opened => exact ⟨rfl, rfl⟩
  | misaddressed | aborted | unanswered | mismatched | ignored | refused | received =>
      exact absurd hone (by decide)

/-- The connection that takes the SYN-ACK has built its SYN and received nothing. -/
theorem PeerSession.start_eq (session : PeerSession) :
    ∃ before : TcpWorld, session.start = before.step (.onSegment session.synAck) ∧
      before.Closing ∧ before.history.delivered ++ before.connection.receiveReady = [] ∧
      before.history.peerFins = 0 ∧
      before.connection.receiveSide =
        (tcpConnectionInit session.localPort session.remotePort
          session.initialSequence).receiveSide ∧
      (tcpConnectionOnSegment before.connection session.synAck).1 = 1 := by
  have hinit := TcpWorld.closing_init session.localPort session.remotePort session.initialSequence
  have hop : ∀ segment, TcpOp.buildSyn session.window ≠ .onSegment segment :=
    fun _ => TcpOp.noConfusion
  refine ⟨_, rfl, hinit.step (.buildSyn session.window), TcpWorld.step_bytes _ hop, ?_,
    TcpOp.receiveSide _ hop, session.accepted⟩
  rcases buildSyn_cases (tcpConnectionInit session.localPort session.remotePort
    session.initialSequence) session.window with ⟨hclosed, -⟩ | ⟨-, segment, -, heq⟩
  · exact absurd rfl hclosed
  · rw [TcpWorld.step_history, TcpWorld.init, TcpHistory.record, heq]

/-- Nothing has been received yet. -/
structure PeerSession.Blank (session : PeerSession) (world : TcpWorld) : Prop where
  closing : world.Closing
  established : world.history.established = true
  bytes : world.history.delivered ++ world.connection.receiveReady = []
  fins : world.history.peerFins = 0
  next : world.connection.receiveNext = session.sequenceAt 0
  free : ∀ i, (world.connection.reassembly i).used = false
  noFin : world.connection.pendingFin = false

/-- The handshake leaves the receive side as `tcp_connection_init` did, but for
`receive_next`, which is the beginning of the stream. -/
theorem PeerSession.start_blank (session : PeerSession) : session.Blank session.start := by
  obtain ⟨before, heq, hclosing, hbytes, hfins, hside, haccepted⟩ := session.start_eq
  have hcall := onSegment_spec session.synAck hclosing.bounded
  obtain ⟨hn, hlast⟩ := hcall.opened_of_result haccepted
  have hopened := (before.connection.afterAck_receiveSide session.synAck).trans hside
  have hconnection : session.start.connection =
      (before.connection.afterAck session.synAck).opened session.synAck := by
    rw [heq]
    exact hlast
  have hhistory : session.start.history =
      before.history.received before.connection session.synAck 1 0 := by
    rw [heq, TcpWorld.step_history, TcpHistory.record_onSegment, haccepted, hn]
  refine ⟨?_, ?_, ?_, ?_, ?_, fun i => ?_, ?_⟩
  · rw [heq]
    exact hclosing.step _
  · rw [hhistory]
    exact Bool.or_true _
  · rw [hhistory, hconnection, TcpHistory.received_delivered]
    exact (congrArg _ (TcpConnection.afterAck_receiveReady ..)).trans hbytes
  · rw [hhistory, TcpHistory.received_peerFins, hfins]
  · rw [hconnection]
    exact (BitVec.add_zero _).symm
  · rw [hconnection]
    exact congrArg TcpReassemblySlot.used
      (congrFun (congrArg TcpReceiveSide.reassembly hopened) i)
  · rw [hconnection]
    exact congrArg TcpReceiveSide.pendingFin hopened

/-- A receiver that has nothing is in order. -/
theorem PeerSession.Blank.orderly {session : PeerSession} {world : TcpWorld}
    (h : session.Blank world) : session.Orderly world := by
  refine ⟨h.closing.bounded, ?_, ?_, Or.inl h.fins, fun i hi => ?_, fun hpending => ?_⟩
  · rw [h.bytes]
    exact List.nil_prefix
  · rw [h.next, h.bytes, h.fins]
    rfl
  · exact absurd ((h.free i).symm.trans hi) Bool.false_ne_true
  · exact absurd (h.noFin.symm.trans hpending) Bool.false_ne_true

/-! ### Runs -/

/-- **Byte-stream safety.**  After every call of a session with an honest peer the bytes
that were read, followed by those that are ready, are a beginning of the peer's stream,
and `receive_next` is the position behind it. -/
theorem stream_safe (session : PeerSession) (ops : List TcpOp)
    (h : ∀ op ∈ ops, session.Allows op) :
    Always TcpWorld.step session.Safe session.start ops := by
  intro before hbefore
  have hallows : Transition.Along TcpWorld.step (fun _ op => session.Allows op) session.start
      before := Transition.along_of_forall fun op hop => h op (hbefore.subset hop)
  exact (hallows.run_invariant (fun _ _ hinv hop => hinv.step hop)
    session.start_blank.orderly).inOrder.safe

/-- The session of the tests with a peer that is going to send `stream`. -/
def PeerSession.testWith (stream : List UInt8) (h : stream.length + 1 < 2 ^ 31) :
    PeerSession where
  localPort := 40000
  remotePort := 80
  initialSequence := 1000
  window := 64240
  synAck := peerSegment 9000 1001 (tcpFlagSyn ||| tcpFlagAck) []
  stream
  stream_lt := h
  synAck_payload := rfl
  accepted := by decide +kernel

/-- A session whose sequence numbers wrap behind the third byte of the stream. -/
def PeerSession.test : PeerSession where
  localPort := 40000
  remotePort := 80
  initialSequence := 1000
  window := 64240
  synAck := peerSegment 0xfffffffc 1001 (tcpFlagSyn ||| tcpFlagAck) []
  stream := [1, 2, 3, 4, 5, 6, 7, 8]
  stream_lt := by decide
  synAck_payload := rfl
  accepted := by decide +kernel

/-- The first six bytes of the stream. -/
def testFront : TcpSegment := peerSegment 0xfffffffd 1001 tcpFlagAck [1, 2, 3, 4, 5, 6]

/-- The second half of the stream with its FIN. -/
def testBack : TcpSegment := peerSegment 1 1001 (tcpFlagFin ||| tcpFlagAck) [5, 6, 7, 8]

theorem testFront_honest : PeerSession.test.Honest testFront :=
  ⟨by decide +kernel, by decide +kernel, 0, by decide +kernel⟩

theorem testBack_honest : PeerSession.test.Honest testBack :=
  ⟨by decide +kernel, by decide +kernel, 4, by decide +kernel⟩

/-- The second half arrives first, then the overlapping front. -/
def reorderedOps : List TcpOp := [.onSegment testBack, .read 3, .onSegment testFront]

/-- The segments of the test are those of an honest peer, in another order. -/
theorem reorderedOps_allowed : ∀ op ∈ reorderedOps, PeerSession.test.Allows op := by
  intro op hop
  simp only [reorderedOps, List.mem_cons, List.not_mem_nil, or_false] at hop
  rcases hop with rfl | rfl | rfl
  · exact testBack_honest
  · trivial
  · exact testFront_honest

theorem stream_safe_reordered :
    Always TcpWorld.step PeerSession.test.Safe PeerSession.test.start reorderedOps :=
  stream_safe PeerSession.test reorderedOps reorderedOps_allowed

end Netstack
