/-
# The other calls, and what each call leaves alone

One lemma a function for the builders, the timer and the reader of
`Netstack.TcpConnection.Engine`, in the style of `onSegment_spec`.  The three
builders make the same change to the connection, `TcpConnection.sent`, with their
own segment and state.

The send side and the receive side of a connection are disjoint sets of fields.
A receive path leaves the send side alone (`ReceivePath.sendSide`); a builder and
the timer leave the receive side alone.
-/

import Netstack.TcpConnection.ReceivePath

namespace Netstack

open Relation (ReflTransGen)
open Transition (run run_invariant)

/-! ### The builders -/

/-- The segment begins at `sequenceNumber` and carries these flags and this payload. -/
structure TcpSegment.Carries (segment : TcpSegment) (sequenceNumber : BitVec 32)
    (flags : BitVec 8) (payload : List UInt8) : Prop where
  sequenceNumber_eq : segment.sequenceNumber = sequenceNumber
  flags_eq : segment.flags = flags
  payload_eq : segment.payload = payload

/-- What `tcp_build` makes carries the sequence number, flags and payload that it was asked for.
-/
theorem TcpSegment.carries_of_tcpBuild {sp dp : BitVec 16} {seq ack : BitVec 32}
    {flags : BitVec 8} {window : BitVec 16} {payload : List UInt8} {segment : TcpSegment}
    (h : tcpBuild sp dp seq ack flags window payload = some segment) :
    segment.Carries seq flags payload := by
  obtain ⟨-, -, hseq, -, hflags, -, hpayload⟩ := tcpBuild_eq_some h
  exact ⟨hseq, hflags, hpayload⟩

theorem tcpBuild_nil (sp dp : BitVec 16) (seq ack : BitVec 32) (flags : BitVec 8)
    (window : BitVec 16) : ∃ segment, tcpBuild sp dp seq ack flags window [] = some segment :=
  Option.ne_none_iff_exists'.1 fun h => absurd (tcpBuild_eq_none.1 h) (Nat.not_lt_zero _)

/-- The connection after `segment` was built: it is the one outstanding segment. -/
def TcpConnection.sent (connection : TcpConnection) (segment : TcpSegment)
    (state : TcpConnectionState) : TcpConnection :=
  { connection with
    state
    sendUnacknowledged := connection.sendNext
    sendNext := connection.sendNext + BitVec.ofNat 32 segment.sequenceLength
    lastSegment := segment
    hasRetransmitSegment := true
    retransmitElapsedMs := 0 }

/-- The length of a segment in sequence numbers is read off its flags and payload: SYN and FIN
count one each. -/
theorem TcpSegment.Carries.sequenceLength {segment : TcpSegment} {seq : BitVec 32}
    {flags : BitVec 8} {payload : List UInt8} (h : segment.Carries seq flags payload) :
    segment.sequenceLength = payload.length + (flags &&& tcpFlagSyn != 0).toNat +
      (flags &&& tcpFlagFin != 0).toNat := by
  rw [TcpSegment.sequenceLength, TcpSegment.hasFlag, TcpSegment.hasFlag, h.flags_eq, h.payload_eq]

/-- A SYN is built in CLOSED only, and then nothing else can fail: the segment has no payload
that could be too long. -/
theorem buildSyn_cases (connection : TcpConnection) (window : BitVec 16) :
    (connection.state ≠ .closed ∧
        tcpConnectionBuildSyn connection window = ⟨-1, connection, none⟩) ∨
      (connection.state = .closed ∧ ∃ segment : TcpSegment,
        segment.Carries connection.sendNext tcpFlagSyn [] ∧
        tcpConnectionBuildSyn connection window =
          ⟨0, connection.sent segment .synSent, some segment⟩) := by
  unfold tcpConnectionBuildSyn
  by_cases h : connection.state = .closed
  swap
  · exact Or.inl ⟨h, if_pos h⟩
  obtain ⟨segment, hseg⟩ := tcpBuild_nil connection.localPort connection.remotePort
    connection.sendNext 0 tcpFlagSyn window
  have hcarries := TcpSegment.carries_of_tcpBuild hseg
  refine Or.inr ⟨h, segment, hcarries, ?_⟩
  rw [if_neg (not_not_intro h), hseg, TcpConnection.sent, hcarries.sequenceLength]
  rfl

/-- Data is built in ESTABLISHED only, and fails for an empty payload or one that does not fit
into a segment; otherwise the connection counts its bytes as outstanding. -/
theorem buildData_cases (connection : TcpConnection) (payload : List UInt8) (window : BitVec 16) :
    (¬(connection.state = .established ∧ payload ≠ [] ∧ payload.length ≤ tcpMaxPayloadLen) ∧
        tcpConnectionBuildData connection payload window = ⟨-1, connection, none⟩) ∨
      (connection.state = .established ∧ payload ≠ [] ∧ ∃ segment : TcpSegment,
        segment.Carries connection.sendNext (tcpFlagPsh ||| tcpFlagAck) payload ∧
        tcpConnectionBuildData connection payload window =
          ⟨0, connection.sent segment .established, some segment⟩) := by
  unfold tcpConnectionBuildData
  by_cases h : payload.length = 0 ∨ connection.state ≠ .established
  · refine Or.inl ⟨fun hsends => ?_, if_pos h⟩
    rw [List.length_eq_zero_iff] at h
    exact h.elim hsends.2.1 (fun hne => hne hsends.1)
  rw [not_or, not_not, List.length_eq_zero_iff] at h
  rw [if_neg (by rw [not_or, not_not, List.length_eq_zero_iff]; exact h)]
  cases hseg : tcpBuild connection.localPort connection.remotePort connection.sendNext
      connection.receiveNext (tcpFlagPsh ||| tcpFlagAck) window payload with
  | none =>
      exact Or.inl ⟨fun hsends => absurd hsends.2.2 (Nat.not_le.2 (tcpBuild_eq_none.1 hseg)), rfl⟩
  | some segment =>
      have hcarries := TcpSegment.carries_of_tcpBuild hseg
      refine Or.inr ⟨h.2, h.1, segment, hcarries, ?_⟩
      rw [TcpConnection.sent, hcarries.sequenceLength, ← h.2]
      rfl

/-- A FIN is built in ESTABLISHED or CLOSE-WAIT, and the state that follows depends on which of
the two it was. -/
theorem buildFin_cases (connection : TcpConnection) (window : BitVec 16) :
    (connection.state ≠ .established ∧ connection.state ≠ .closeWait ∧
        tcpConnectionBuildFin connection window = ⟨-1, connection, none⟩) ∨
      ∃ state, (connection.state = .established ∧ state = .finWait1 ∨
          connection.state = .closeWait ∧ state = .lastAck) ∧ ∃ segment : TcpSegment,
        segment.Carries connection.sendNext (tcpFlagFin ||| tcpFlagAck) [] ∧
        tcpConnectionBuildFin connection window =
          ⟨0, connection.sent segment state, some segment⟩ := by
  unfold tcpConnectionBuildFin
  obtain ⟨segment, hseg⟩ := tcpBuild_nil connection.localPort connection.remotePort
    connection.sendNext connection.receiveNext (tcpFlagFin ||| tcpFlagAck) window
  have hcarries := TcpSegment.carries_of_tcpBuild hseg
  rw [hseg]
  by_cases he : connection.state = .established
  · refine Or.inr ⟨.finWait1, Or.inl ⟨he, rfl⟩, segment, hcarries, ?_⟩
    rw [if_neg (by simp [he]), TcpConnection.sent, hcarries.sequenceLength]
    simp only [he]
    rfl
  by_cases hc : connection.state = .closeWait
  · refine Or.inr ⟨.lastAck, Or.inr ⟨hc, rfl⟩, segment, hcarries, ?_⟩
    rw [if_neg (by simp [hc]), TcpConnection.sent, hcarries.sequenceLength]
    simp only [hc]
    rfl
  · exact Or.inl ⟨he, hc, if_pos ⟨he, hc⟩⟩

/-! ### The timer -/

/-- The connection with other values in the running fields of its timer. -/
def TcpConnection.timed (connection : TcpConnection) (elapsed count timeout : BitVec 32) :
    TcpConnection :=
  { connection with
    retransmitElapsedMs := elapsed
    retransmitCount := count
    retransmitTimeoutMs := timeout }

/-- The connection after the last retransmission expired. -/
def TcpConnection.givenUp (connection : TcpConnection) (elapsed : BitVec 32) : TcpConnection :=
  { connection with
    retransmitElapsedMs := elapsed
    state := .reset
    hasRetransmitSegment := false }

/-- The timer is off, or it runs on, or it gives up, or it sends the segment again. -/
theorem tick_cases (connection : TcpConnection) (elapsedMs : BitVec 32) :
    (connection.hasRetransmitSegment = false ∧
        tcpConnectionTick connection elapsedMs = ⟨0, connection, none⟩) ∨
      connection.hasRetransmitSegment = true ∧ ∃ elapsed : BitVec 32,
        elapsed = addElapsed elapsedMs connection.retransmitElapsedMs ∧
        ((elapsed < connection.retransmitTimeoutMs ∧
            tcpConnectionTick connection elapsedMs =
              ⟨0, connection.timed elapsed connection.retransmitCount
                connection.retransmitTimeoutMs, none⟩) ∨
          (connection.retransmitTimeoutMs ≤ elapsed ∧
            connection.retransmitLimit ≤ connection.retransmitCount ∧
            tcpConnectionTick connection elapsedMs = ⟨-1, connection.givenUp elapsed, none⟩) ∨
          (connection.retransmitTimeoutMs ≤ elapsed ∧
            connection.retransmitCount < connection.retransmitLimit ∧
            tcpConnectionTick connection elapsedMs =
              ⟨1, connection.timed 0 (connection.retransmitCount + 1)
                (backoff connection.retransmitTimeoutMs), some connection.lastSegment⟩)) := by
  unfold tcpConnectionTick
  by_cases hhas : connection.hasRetransmitSegment = true
  swap
  · exact Or.inl ⟨by simpa using hhas, if_pos (by simpa using hhas)⟩
  refine Or.inr ⟨hhas, _, rfl, ?_⟩
  rw [if_neg (by simpa using hhas)]
  generalize addElapsed elapsedMs connection.retransmitElapsedMs = elapsed
  by_cases hwait : elapsed < connection.retransmitTimeoutMs
  · exact Or.inl ⟨hwait, if_pos hwait⟩
  have hexpired := BitVec.not_lt.1 hwait
  by_cases hlimit : connection.retransmitCount ≥ connection.retransmitLimit
  · exact Or.inr (Or.inl ⟨hexpired, hlimit, (if_neg hwait).trans (if_pos hlimit)⟩)
  · exact Or.inr (Or.inr ⟨hexpired, BitVec.not_le.1 hlimit,
      (if_neg hwait).trans (if_neg hlimit)⟩)

/-- What the timer can do to the connection, whatever its numbers are. -/
theorem tick_connection (connection : TcpConnection) (elapsedMs : BitVec 32) :
    (∃ elapsed count timeout,
        (tcpConnectionTick connection elapsedMs).connection =
          connection.timed elapsed count timeout) ∨
      ∃ elapsed, (tcpConnectionTick connection elapsedMs).connection =
        connection.givenUp elapsed := by
  rcases tick_cases connection elapsedMs with
    ⟨-, h⟩ | ⟨-, elapsed, -, ⟨-, h⟩ | ⟨-, -, h⟩ | ⟨-, -, h⟩⟩
  · exact Or.inl ⟨connection.retransmitElapsedMs, connection.retransmitCount,
      connection.retransmitTimeoutMs, by rw [h]; rfl⟩
  · exact Or.inl ⟨_, _, _, by rw [h]⟩
  · exact Or.inr ⟨_, by rw [h]⟩
  · exact Or.inl ⟨_, _, _, by rw [h]⟩

/-! ### The reader -/

/-- `tcp_connection_read` moves a prefix of the ready buffer out. -/
theorem read_eq (connection : TcpConnection) (bufferLen : ℕ) :
    tcpConnectionRead connection bufferLen =
      (connection.receiveReady.take bufferLen,
        { connection with receiveReady := connection.receiveReady.drop bufferLen }) := by
  unfold tcpConnectionRead
  by_cases h : bufferLen = 0 ∨ connection.receiveReady.length = 0
  · rw [if_pos h]
    rcases h with rfl | h
    · rfl
    · rw [List.length_eq_zero_iff] at h
      rw [h, List.take_nil, List.drop_nil, ← h]
  · rw [if_neg h]
    dsimp only
    split_ifs with hlong
    · rfl
    · rw [List.take_of_length_le le_rfl, List.drop_of_length_le le_rfl,
        List.take_of_length_le (by omega), List.drop_of_length_le (by omega)]

/-! ### What a receive path leaves alone -/

/-- The fields of the connection that sending and its timer use. -/
structure TcpSendSide where
  localPort : BitVec 16
  remotePort : BitVec 16
  sendUnacknowledged : BitVec 32
  sendNext : BitVec 32
  remoteWindow : BitVec 16
  retransmitTimeoutMs : BitVec 32
  retransmitElapsedMs : BitVec 32
  retransmitCount : BitVec 32
  retransmitLimit : BitVec 32
  lastSegment : TcpSegment
  hasRetransmitSegment : Bool

/-- The send side of a connection. -/
def TcpConnection.sendSide (connection : TcpConnection) : TcpSendSide :=
  { connection with }

theorem removeReassemblySlot_sendSide (connection : TcpConnection) (i : SlotIndex) :
    (removeReassemblySlot connection i).sendSide = connection.sendSide := by
  unfold removeReassemblySlot
  split_ifs <;> rfl

theorem removeReassemblySlot_state (connection : TcpConnection) (i : SlotIndex) :
    (removeReassemblySlot connection i).state = connection.state := by
  unfold removeReassemblySlot
  split_ifs <;> rfl

/-- Promotion is about received bytes only. -/
theorem PromoteStep.sendSide {connection next : TcpConnection} (h : PromoteStep connection next) :
    next.sendSide = connection.sendSide := by
  cases h with
  | discard => exact removeReassemblySlot_sendSide _ _
  | deliver => exact removeReassemblySlot_sendSide _ _

/-- Promotion leaves the state alone: only a FIN changes it, after the loop. -/
theorem PromoteStep.state {connection next : TcpConnection} (h : PromoteStep connection next) :
    next.state = connection.state := by
  cases h with
  | discard => exact removeReassemblySlot_state _ _
  | deliver => exact removeReassemblySlot_state _ _

/-- The send side is not touched behind ACK processing. -/
theorem ReceiveStep.sendSide {segment : TcpSegment} {connection next : TcpConnection}
    (h : ReceiveStep segment connection next) : next.sendSide = connection.sendSide := by
  cases h with
  | accept | buffer | remember => rfl
  | promote step => exact step.sendSide

/-- No step of the receive path changes the state, except those that consume a FIN, which are
steps of their own. -/
theorem ReceiveStep.state {segment : TcpSegment} {connection next : TcpConnection}
    (h : ReceiveStep segment connection next) : next.state = connection.state := by
  cases h with
  | accept | buffer | remember => rfl
  | promote step => exact step.state

theorem FinStep.sendSide {segment : TcpSegment} {connection next : TcpConnection}
    (h : FinStep segment connection next) : next.sendSide = connection.sendSide := by
  cases h <;> rfl

theorem FinStep.state {segment : TcpSegment} {connection next : TcpConnection}
    (h : FinStep segment connection next) : next.state = connection.state.onPeerFin := by
  cases h <;> rfl

/-- **A receive path leaves the send side alone.** -/
theorem ReceivePath.sendSide {segment : TcpSegment} {start last : TcpConnection} {n : ℕ}
    (h : ReceivePath segment start n last) : last.sendSide = start.sendSide :=
  h.invariant (P := fun _ c => c.sendSide = start.sendSide)
    (fun _ _ _ hP hs => hs.sendSide.trans hP) (fun _ _ _ hP hs => hs.sendSide.trans hP) rfl

/-- A receive path changes the state as its FINs do. -/
theorem ReceivePath.state {segment : TcpSegment} {start last : TcpConnection} {n : ℕ}
    (h : ReceivePath segment start n last) :
    last.state = TcpConnectionState.onPeerFin^[n] start.state :=
  h.invariant (P := fun n c => c.state = TcpConnectionState.onPeerFin^[n] start.state)
    (fun _ _ _ hP hs => hs.state.trans hP)
    (fun _ _ _ hP hs => by rw [hs.state, hP, Function.iterate_succ_apply']) rfl

/-- The second FIN of a path changes the state no further. -/
theorem TcpConnectionState.onPeerFin_onPeerFin (state : TcpConnectionState) :
    state.onPeerFin.onPeerFin = state.onPeerFin := by
  cases state <;> rfl

/-- Only the first FIN changes the state, so that consuming more than one cannot lead any
further. -/
theorem TcpConnectionState.iterate_onPeerFin (state : TcpConnectionState) {n : ℕ} (hn : 0 < n) :
    TcpConnectionState.onPeerFin^[n] state = state.onPeerFin := by
  induction n, hn using Nat.le_induction with
  | base => rfl
  | succ n _ ih =>
      rw [Function.iterate_succ_apply', ih, TcpConnectionState.onPeerFin_onPeerFin]

/-! ### What the other calls leave alone -/

/-- The fields of the connection that say where reception is, apart from the bytes that
are ready. -/
structure TcpReceiveSide where
  receiveNext : BitVec 32
  reassembly : SlotIndex → TcpReassemblySlot
  reassemblyCount : ℕ
  pendingFin : Bool
  pendingFinSequence : BitVec 32

/-- The receive side of a connection. -/
def TcpConnection.receiveSide (connection : TcpConnection) : TcpReceiveSide :=
  { connection with }

theorem TcpConnection.afterAck_receiveSide (connection : TcpConnection) (segment : TcpSegment) :
    (connection.afterAck segment).receiveSide = connection.receiveSide := by
  rw [TcpConnection.afterAck_eq]
  split_ifs <;> rfl

theorem finishClose_receiveSide (connection : TcpConnection) :
    (finishClose connection).receiveSide = connection.receiveSide := by
  unfold finishClose
  split_ifs <;> rfl

theorem finishClose_receiveNext (connection : TcpConnection) :
    (finishClose connection).receiveNext = connection.receiveNext :=
  congrArg TcpReceiveSide.receiveNext (finishClose_receiveSide connection)

theorem finishClose_receiveReady (connection : TcpConnection) :
    (finishClose connection).receiveReady = connection.receiveReady := by
  unfold finishClose
  split_ifs <;> rfl

/-- Whether a pending FIN is due is decided by the receive side. -/
theorem TcpConnection.pendingFinDue_congr {connection next : TcpConnection}
    (h : next.receiveSide = connection.receiveSide) :
    next.pendingFinDue = connection.pendingFinDue := by
  rw [TcpConnection.pendingFinDue, TcpConnection.pendingFinDue,
    show next.pendingFin = connection.pendingFin from congrArg TcpReceiveSide.pendingFin h,
    show next.pendingFinSequence = connection.pendingFinSequence from
      congrArg TcpReceiveSide.pendingFinSequence h,
    show next.receiveNext = connection.receiveNext from congrArg TcpReceiveSide.receiveNext h]

@[simp] theorem TcpConnection.pendingFinDue_afterAck {connection : TcpConnection}
    {segment : TcpSegment} :
    (connection.afterAck segment).pendingFinDue = connection.pendingFinDue :=
  TcpConnection.pendingFinDue_congr (connection.afterAck_receiveSide segment)

/-- **Only an incoming segment moves the receive side.**  The builders, the timer and the
reader leave it alone. -/
theorem TcpOp.receiveSide {op : TcpOp} (connection : TcpConnection)
    (hop : ∀ segment, op ≠ .onSegment segment) :
    (op.effect connection).receiveSide = connection.receiveSide := by
  cases op with
  | buildSyn window =>
      rcases buildSyn_cases connection window with ⟨-, heq⟩ | ⟨-, segment, -, heq⟩
      · rw [TcpOp.effect, heq]
      · rw [TcpOp.effect, heq]
        rfl
  | onSegment segment => exact absurd rfl (hop segment)
  | buildAck => rfl
  | buildData payload window =>
      rcases buildData_cases connection payload window with ⟨-, heq⟩ | ⟨-, -, segment, -, heq⟩
      · rw [TcpOp.effect, heq]
      · rw [TcpOp.effect, heq]
        rfl
  | buildFin window =>
      rcases buildFin_cases connection window with ⟨-, -, heq⟩ | ⟨_, -, segment, -, heq⟩
      · rw [TcpOp.effect, heq]
      · rw [TcpOp.effect, heq]
        rfl
  | tick elapsedMs =>
      rcases tick_connection connection elapsedMs with ⟨_, _, _, heq⟩ | ⟨_, heq⟩
      · rw [TcpOp.effect, heq]
        rfl
      · rw [TcpOp.effect, heq]
        rfl
  | read bufferLen =>
      rw [TcpOp.effect, read_eq]
      rfl

/-- What a call that is not about an incoming segment does to the state: a builder takes
its own step, and the timer may give up. -/
theorem TcpOp.state_cases {op : TcpOp} (connection : TcpConnection)
    (hop : ∀ segment, op ≠ .onSegment segment) :
    let state := (op.effect connection).state
    state = connection.state ∨ state = .reset ∨
      (connection.state = .closed ∧ state = .synSent) ∨
      (connection.state = .established ∧ state = .finWait1) ∨
      (connection.state = .closeWait ∧ state = .lastAck) := by
  intro state
  cases op with
  | buildSyn window =>
      rcases buildSyn_cases connection window with ⟨-, heq⟩ | ⟨hwas, segment, -, heq⟩
      · exact Or.inl (by simp only [state, TcpOp.effect, heq])
      · exact Or.inr (Or.inr (Or.inl ⟨hwas, by simp only [state, TcpOp.effect, heq]; rfl⟩))
  | onSegment segment => exact absurd rfl (hop segment)
  | buildAck => exact Or.inl rfl
  | buildData payload window =>
      rcases buildData_cases connection payload window with
        ⟨-, heq⟩ | ⟨hwas, -, segment, -, heq⟩
      · exact Or.inl (by simp only [state, TcpOp.effect, heq])
      · exact Or.inl (by simp only [state, TcpOp.effect, heq, hwas]; rfl)
  | buildFin window =>
      rcases buildFin_cases connection window with
        ⟨-, -, heq⟩ | ⟨_, ⟨hwas, rfl⟩ | ⟨hwas, rfl⟩, segment, -, heq⟩
      · exact Or.inl (by simp only [state, TcpOp.effect, heq])
      · exact Or.inr (Or.inr (Or.inr (Or.inl ⟨hwas, by simp only [state, TcpOp.effect, heq]; rfl⟩)))
      · exact Or.inr (Or.inr (Or.inr (Or.inr ⟨hwas, by simp only [state, TcpOp.effect, heq]; rfl⟩)))
  | tick elapsedMs =>
      rcases tick_connection connection elapsedMs with ⟨_, _, _, heq⟩ | ⟨_, heq⟩
      · exact Or.inl (by simp only [state, TcpOp.effect, heq]; rfl)
      · exact Or.inr (Or.inl (by simp only [state, TcpOp.effect, heq]; rfl))
  | read bufferLen => exact Or.inl (by simp only [state, TcpOp.effect, read_eq])

/-! ### The slots stay bounded in every run -/

theorem init_slotsBounded (localPort remotePort : BitVec 16) (initialSequence : BitVec 32) :
    (tcpConnectionInit localPort remotePort initialSequence).SlotsBounded :=
  fun _ h => absurd h Bool.false_ne_true

theorem finishClose_slotsBounded {connection : TcpConnection} (hb : connection.SlotsBounded) :
    (finishClose connection).SlotsBounded := by
  unfold finishClose
  split_ifs <;> exact hb

/-- The path between ACK processing and the closing checks of an accepted call. -/
theorem Payload.received_path {segment : TcpSegment} {connection mid : TcpConnection} {n : ℕ}
    (h : Payload segment connection 0 n mid) :
    ReceivePath segment connection
      (n + (mid.finDue segment).toNat + (processFin mid segment).pendingFinDue.toNat)
      (consumePendingFin (processFin mid segment)) :=
  (h.path.trans (processFin_path segment mid)).trans (consumePendingFin_path segment _)

/-- An incoming segment keeps the slots bounded in every branch. -/
theorem OnSegment.slotsBounded {segment : TcpSegment} {connection last : TcpConnection}
    {result : ℤ} {n : ℕ} (h : OnSegment segment connection result n last)
    (hb : connection.SlotsBounded) : last.SlotsBounded := by
  have hack := hb.afterAck segment
  cases h with
  | misaddressed => exact hb
  | aborted => exact fun _ hused => absurd hused Bool.false_ne_true
  | unanswered | mismatched | ignored | opened => exact hack
  | refused _ _ _ payload => exact payload.path.slotsBounded hack
  | received _ _ _ payload =>
      exact finishClose_slotsBounded (payload.received_path.slotsBounded hack)

/-- The step lemma for all seven calls: of these only an incoming segment touches the slots. -/
theorem TcpOp.slotsBounded (op : TcpOp) {connection : TcpConnection}
    (hb : connection.SlotsBounded) : (op.effect connection).SlotsBounded := by
  cases op with
  | buildSyn window =>
      rcases buildSyn_cases connection window with ⟨-, h⟩ | ⟨-, segment, -, h⟩ <;>
        rw [TcpOp.effect, h] <;> exact hb
  | onSegment segment => exact (onSegment_spec segment hb).slotsBounded hb
  | buildAck => exact hb
  | buildData payload window =>
      rcases buildData_cases connection payload window with ⟨-, h⟩ | ⟨-, -, segment, -, h⟩ <;>
        rw [TcpOp.effect, h] <;> exact hb
  | buildFin window =>
      rcases buildFin_cases connection window with ⟨-, -, h⟩ | ⟨state, -, segment, -, h⟩ <;>
        rw [TcpOp.effect, h] <;> exact hb
  | tick elapsedMs =>
      rcases tick_connection connection elapsedMs with ⟨_, _, _, h⟩ | ⟨_, h⟩ <;>
        rw [TcpOp.effect, h] <;> exact hb
  | read bufferLen =>
      rw [TcpOp.effect, read_eq]
      exact hb

/-- **The slots are bounded in every reachable state.** -/
theorem slotsBounded_run (localPort remotePort : BitVec 16) (initialSequence : BitVec 32)
    (ops : List TcpOp) :
    (run TcpWorld.step (TcpWorld.init localPort remotePort initialSequence)
      ops).connection.SlotsBounded :=
  run_invariant (I := fun world : TcpWorld => world.connection.SlotsBounded)
    (fun _ op h => op.slotsBounded h) ops (init_slotsBounded _ _ _)

end Netstack
