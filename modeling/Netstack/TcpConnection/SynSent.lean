/-
# SYN-SENT

A SYN is sent from CLOSED, and until it is answered only ACK processing and the timer
touch the connection (`TcpOp.synSent_cases`).  Two results rest on this.

A rejected call leaves the connection as it was, with one exception: the window of a
SYN-ACK for another SYN is stored before the number is looked at
(`rejected_untouched_iff`).

A completed handshake finds the reassembly as it was when the SYN was sent.  Neither
the end of LAST-ACK nor `tcp_connection_build_syn` clears it, so what an earlier
session has left there enters the new stream (`staleSlot_survives`); it does not when
every SYN is sent from a connection without anything buffered (`handshake_startsEmpty`).
-/

import Netstack.TcpConnection.Bounds
import Netstack.TcpConnection.CloseStates

namespace Netstack

open Transition (run run_invariant Along)

/-! ### Calls that end in SYN-SENT -/

/-- **How a call ends in SYN-SENT.**  It has sent a SYN, or the connection was there
already; then the receive side is as it was, and at most an accepted acknowledgment has
moved the send window. -/
theorem TcpOp.synSent_cases (op : TcpOp) {connection : TcpConnection}
    (hb : connection.SlotsBounded) (h : (op.effect connection).state = .synSent) :
    (connection.state = .closed ∧ (∃ window, op = .buildSyn window) ∧
        (op.effect connection).receiveSide = connection.receiveSide ∧
        (op.effect connection).sendNext = connection.sendNext + 1 ∧
        (op.effect connection).sendUnacknowledged = connection.sendNext) ∨
      (connection.state = .synSent ∧
        (op.effect connection).receiveSide = connection.receiveSide ∧
        (op.effect connection).sendNext = connection.sendNext ∧
        ((op.effect connection).sendUnacknowledged = connection.sendUnacknowledged ∨
          ∃ segment, connection.acceptsAck segment = true ∧
            (op.effect connection).sendUnacknowledged = segment.acknowledgmentNumber)) := by
  by_cases hop : ∃ segment, op = .onSegment segment
  · obtain ⟨segment, rfl⟩ := hop
    have hcall := onSegment_spec segment hb
    rw [TcpOp.effect] at h ⊢
    generalize (tcpConnectionOnSegment connection segment).1 = result,
      onSegmentFins connection segment = n,
      (tcpConnectionOnSegment connection segment).2 = last at hcall h ⊢
    have hwas : last = connection ∨ last = connection.afterAck segment := by
      cases hcall with
      | misaddressed => exact Or.inl rfl
      | aborted | opened => exact TcpConnectionState.noConfusion h
      | unanswered | mismatched | ignored => exact Or.inr rfl
      | refused _ _ receives payload =>
          refine absurd ?_ (TcpConnectionState.ne_synSent_of_receives receives)
          have hn := payload.fins_of_refused
          have hpath := payload.path.state
          rw [hn, TcpConnection.afterAck_state] at hpath
          exact hpath.symm.trans h
      | received _ _ receives payload => exact absurd h (payload.received_ne_synSent receives)
    rcases hwas with rfl | rfl
    · exact Or.inr ⟨h, rfl, rfl, Or.inl rfl⟩
    · rw [TcpConnection.afterAck_state] at h
      refine Or.inr ⟨h, connection.afterAck_receiveSide segment,
        TcpConnection.afterAck_sendNext .., ?_⟩
      rw [TcpConnection.afterAck_sendUnacknowledged]
      split_ifs with haccepts
      · exact Or.inr ⟨segment, haccepts, rfl⟩
      · exact Or.inl rfl
  · have hne : ∀ segment, op ≠ .onSegment segment := fun segment heq => hop ⟨segment, heq⟩
    have hside := TcpOp.receiveSide connection hne
    by_cases hsends : op.sends connection
    · cases op with
      | buildSyn window =>
          rcases buildSyn_cases connection window with ⟨hstate, -⟩ | ⟨hstate, segment, hc, heq⟩
          · exact absurd hsends hstate
          · have hone : segment.sequenceLength = 1 := hc.sequenceLength
            refine Or.inl ⟨hstate, ⟨window, rfl⟩, hside, ?_, ?_⟩
            · rw [TcpOp.effect, heq]
              show connection.sendNext + BitVec.ofNat 32 segment.sequenceLength = _
              rw [hone]
              rfl
            · rw [TcpOp.effect, heq]
              rfl
      | buildData payload window =>
          obtain ⟨segment, -, heq⟩ := (buildData_cases connection payload window).resolve_left
            (fun hnot => hnot.1 hsends) |>.2.2
          rw [TcpOp.effect, heq] at h
          exact TcpConnectionState.noConfusion h
      | buildFin window =>
          rcases buildFin_cases connection window with
            ⟨he, hc, -⟩ | ⟨_, ⟨-, rfl⟩ | ⟨-, rfl⟩, segment, -, heq⟩
          · exact absurd hsends (not_or.2 ⟨he, hc⟩)
          all_goals
            rw [TcpOp.effect, heq] at h
            exact TcpConnectionState.noConfusion h
      | onSegment | buildAck | tick | read => exact absurd hsends id
    · obtain ⟨huna, hnext, -, hcase, -⟩ := TcpOp.effect_of_not_sends hsends hne
      rcases hcase with ⟨hstate, -⟩ | ⟨hstate, -⟩
      · exact Or.inr ⟨hstate.symm.trans h, hside, hnext, Or.inl huna⟩
      · exact TcpConnectionState.noConfusion (hstate.symm.trans h)

/-! ### Rejected calls -/

/-- The call returns `-1`: the segment, or what was to be built, is rejected. -/
def TcpOp.Rejected (connection : TcpConnection) : TcpOp → Prop
  | .buildSyn window => (tcpConnectionBuildSyn connection window).result = -1
  | .onSegment segment => (tcpConnectionOnSegment connection segment).1 = -1
  | .buildData payload window => (tcpConnectionBuildData connection payload window).result = -1
  | .buildFin window => (tcpConnectionBuildFin connection window).result = -1
  | .buildAck _ | .tick _ | .read _ => False

/-- The segment is a SYN-ACK for another SYN than the one that was sent. -/
def TcpConnection.Mismatches (connection : TcpConnection) (segment : TcpSegment) : Prop :=
  connection.addressedBy segment = true ∧ segment.hasFlag tcpFlagRst = false ∧
    connection.state = .synSent ∧ segment.isSynAck = true ∧
    segment.acknowledgmentNumber ≠ connection.sendNext

/-- In SYN-SENT at most the SYN is outstanding. -/
def TcpConnection.SynOutstanding (connection : TcpConnection) : Prop :=
  connection.state = .synSent → (connection.sendNext - connection.sendUnacknowledged).toNat ≤ 1

/-- SYN-SENT is entered by `build_syn`, which puts one number into the window, and an
acknowledgment can only make the window smaller. -/
theorem TcpOp.synOutstanding (op : TcpOp) {connection : TcpConnection}
    (hb : connection.SlotsBounded) (hinv : SendInv connection)
    (h : connection.SynOutstanding) : (op.effect connection).SynOutstanding := by
  intro hstate
  rcases op.synSent_cases hb hstate with
    ⟨-, -, -, hnext, huna⟩ | ⟨hwas, -, hnext, huna | ⟨segment, haccepts, huna⟩⟩
  · rw [hnext, huna, BitVec.add_comm, BitVec.add_sub_cancel]
    decide
  · rw [hnext, huna]
    exact h hwas
  · obtain ⟨-, -, hle⟩ := (hinv.acceptsAck_iff segment).1 haccepts
    rw [hnext, huna, SerialNumber.toNat_sub_sub hle]
    exact (Nat.sub_le _ _).trans (h hwas)

/-- A SYN-ACK for another SYN acknowledges nothing: it moves the window only. -/
theorem TcpConnection.Mismatches.afterAck {connection : TcpConnection} {segment : TcpSegment}
    (h : connection.Mismatches segment) (hinv : SendInv connection)
    (hsyn : connection.SynOutstanding) :
    connection.afterAck segment = { connection with remoteWindow := segment.windowSize } := by
  obtain ⟨-, -, hstate, -, hnumber⟩ := h
  have hrefused : ¬connection.acceptsAck segment = true := by
    intro haccepts
    obtain ⟨-, hpos, hle⟩ := (hinv.acceptsAck_iff segment).1 haccepts
    have hone := hsyn hstate
    -- the one number that could be acknowledged is `send_next`
    have hrest := SerialNumber.toNat_sub_sub hle
    have hzero : (connection.sendNext - segment.acknowledgmentNumber).toNat = 0 := by omega
    exact hnumber (SerialNumber.toNat_sub_eq_zero.1 hzero).symm
  rw [TcpConnection.afterAck_eq, if_neg hrefused]

/-- Where an incoming segment is rejected, it is misaddressed or a SYN-ACK for another SYN. -/
theorem onSegment_rejected {connection : TcpConnection} {segment : TcpSegment}
    (hb : connection.SlotsBounded) (h : (tcpConnectionOnSegment connection segment).1 = -1) :
    (tcpConnectionOnSegment connection segment).2 = connection ∨
      connection.Mismatches segment ∧
        (tcpConnectionOnSegment connection segment).2 = connection.afterAck segment := by
  have hcall := onSegment_spec segment hb
  rw [h] at hcall
  generalize onSegmentFins connection segment = n,
    (tcpConnectionOnSegment connection segment).2 = last at hcall ⊢
  cases hcall with
  | misaddressed => exact Or.inl rfl
  | mismatched ports rst state synAck number =>
      exact Or.inr ⟨⟨ports, rst, state, synAck, number⟩, rfl⟩

/-- A mismatching SYN-ACK is refused after its acknowledgment and window were taken. -/
theorem TcpConnection.Mismatches.result {connection : TcpConnection} {segment : TcpSegment}
    (h : connection.Mismatches segment) :
    tcpConnectionOnSegment connection segment = (-1, connection.afterAck segment) := by
  obtain ⟨hports, hrst, hstate, hsyn, hnumber⟩ := h
  unfold tcpConnectionOnSegment processHandshake
  rw [hports, hrst]
  simp only [Bool.not_true, Bool.false_eq_true, if_false, TcpConnection.afterAck_state, hstate,
    if_true, TcpConnection.afterAck_sendNext]
  rw [if_pos (beq_iff_eq.1 hsyn), if_pos hnumber]

/-- **A rejected call moves at most `remote_window`**, and only a SYN-ACK for another SYN
moves it. -/
theorem TcpOp.rejected_cases {op : TcpOp} {connection : TcpConnection}
    (hb : connection.SlotsBounded) (hinv : SendInv connection)
    (hsyn : connection.SynOutstanding) (h : op.Rejected connection) :
    op.effect connection = connection ∨
      ∃ segment, op = .onSegment segment ∧ connection.Mismatches segment ∧
        op.effect connection = { connection with remoteWindow := segment.windowSize } := by
  cases op with
  | buildSyn window =>
      rcases buildSyn_cases connection window with ⟨-, heq⟩ | ⟨-, segment, -, heq⟩
      · exact Or.inl (by rw [TcpOp.effect, heq])
      · rw [TcpOp.Rejected, heq] at h
        exact absurd h (by decide : (0 : ℤ) ≠ -1)
  | onSegment segment =>
      rcases onSegment_rejected hb h with heq | ⟨hmis, heq⟩
      · exact Or.inl heq
      · exact Or.inr ⟨segment, rfl, hmis, heq.trans (hmis.afterAck hinv hsyn)⟩
  | buildData payload window =>
      rcases buildData_cases connection payload window with ⟨-, heq⟩ | ⟨-, -, segment, -, heq⟩
      · exact Or.inl (by rw [TcpOp.effect, heq])
      · rw [TcpOp.Rejected, heq] at h
        exact absurd h (by decide : (0 : ℤ) ≠ -1)
  | buildFin window =>
      rcases buildFin_cases connection window with ⟨-, -, heq⟩ | ⟨_, -, segment, -, heq⟩
      · exact Or.inl (by rw [TcpOp.effect, heq])
      · rw [TcpOp.Rejected, heq] at h
        exact absurd h (by decide : (0 : ℤ) ≠ -1)
  | buildAck | tick | read => exact absurd h id

/-- **A SYN-ACK for another SYN is rejected and moves the window** all the same. -/
theorem rejectedSynAck_movesWindow :
    let connection := (run TcpWorld.step TcpWorld.test [.buildSyn 64240]).connection
    let op := TcpOp.onSegment (peerSegment 9000 5000 (tcpFlagSyn ||| tcpFlagAck) [])
    ¬(op.Rejected connection → op.effect connection = connection) := by
  intro connection op h
  have hrejected : (tcpConnectionOnSegment connection
      (peerSegment 9000 5000 (tcpFlagSyn ||| tcpFlagAck) [])).1 = -1 := by decide +kernel
  have hwindow := congrArg TcpConnection.remoteWindow (h hrejected)
  exact absurd hwindow (by decide +kernel)

/-- **Rejected calls leave the connection untouched**, in every reachable state and for
every argument, exactly when no SYN-ACK for another SYN announces a new window.  Besides
`remote_window` nothing ever moves. -/
theorem rejected_untouched_iff (localPort remotePort : BitVec 16) (initialSequence : BitVec 32)
    (ops : List TcpOp) (op : TcpOp) :
    let connection := (run TcpWorld.step (TcpWorld.init localPort remotePort initialSequence)
      ops).connection
    ((op.Rejected connection → op.effect connection = connection) ↔
        ∀ segment, op = .onSegment segment → connection.Mismatches segment →
          segment.windowSize = connection.remoteWindow) ∧
      (op.Rejected connection → op.effect connection =
        { connection with remoteWindow := (op.effect connection).remoteWindow }) := by
  intro connection
  have hreach : connection.SlotsBounded ∧ SendInv connection ∧ connection.SynOutstanding :=
    run_invariant (I := fun world : TcpWorld => world.connection.SlotsBounded ∧
        SendInv world.connection ∧ world.connection.SynOutstanding)
      (fun _ op h => ⟨op.slotsBounded h.1, op.sendInv h.1 h.2.1,
        op.synOutstanding h.1 h.2.1 h.2.2⟩) ops
      ⟨init_slotsBounded _ _ _, sendInv_init _ _ _, fun h => TcpConnectionState.noConfusion h⟩
  obtain ⟨hb, hinv, hsyn⟩ := hreach
  refine ⟨⟨?_, ?_⟩, fun hrejected => ?_⟩
  · rintro huntouched segment rfl hmis
    have hresult := hmis.result
    have hrejected : (TcpOp.onSegment segment).Rejected connection := by
      rw [TcpOp.Rejected, hresult]
    have heq := huntouched hrejected
    rw [TcpOp.effect, hresult, hmis.afterAck hinv hsyn] at heq
    exact congrArg TcpConnection.remoteWindow heq
  · intro hwindow hrejected
    rcases op.rejected_cases hb hinv hsyn hrejected with heq | ⟨segment, hop, hmis, heq⟩
    · exact heq
    · rw [heq, hwindow segment hop hmis]
  · rcases op.rejected_cases hb hinv hsyn hrejected with heq | ⟨segment, hop, hmis, heq⟩
    · rw [heq]
    · rw [heq]

/-! ### What a new session starts with -/

/-- No slot is in use and no FIN is pending. -/
def TcpConnection.NothingBuffered (connection : TcpConnection) : Prop :=
  (∀ i, (connection.reassembly i).used = false) ∧ connection.pendingFin = false

instance (connection : TcpConnection) : Decidable connection.NothingBuffered :=
  inferInstanceAs (Decidable (_ ∧ _))

/-- A SYN is sent from a connection with nothing buffered. -/
def TcpWorld.SynFromEmpty (world : TcpWorld) : TcpOp → Prop
  | .buildSyn _ => world.connection.state = .closed → world.connection.NothingBuffered
  | .onSegment _ | .buildAck _ | .buildData _ _ | .buildFin _ | .tick _ | .read _ => True

instance (world : TcpWorld) : ∀ op, Decidable (world.SynFromEmpty op)
  | .buildSyn _ => inferInstanceAs (Decidable (_ → _))
  | .onSegment _ | .buildAck _ | .buildData _ _ | .buildFin _ | .tick _ | .read _ =>
    inferInstanceAs (Decidable True)

/-- A call that returns `1` leaves no used slot, no count and no pending FIN. -/
def TcpWorld.OpensEmpty (world : TcpWorld) (op : TcpOp) : Prop :=
  ∀ segment, op = .onSegment segment → (tcpConnectionOnSegment world.connection segment).1 = 1 →
    (∀ i, ((op.effect world.connection).reassembly i).used = false) ∧
      (op.effect world.connection).reassemblyCount = 0 ∧
      (op.effect world.connection).pendingFin = false

/-- Whether anything is buffered is decided by the receive side. -/
theorem TcpConnection.NothingBuffered.of_receiveSide {connection next : TcpConnection}
    (h : connection.NothingBuffered) (hside : next.receiveSide = connection.receiveSide) :
    next.NothingBuffered := by
  have hslots : next.reassembly = connection.reassembly :=
    congrArg TcpReceiveSide.reassembly hside
  have hpending : next.pendingFin = connection.pendingFin :=
    congrArg TcpReceiveSide.pendingFin hside
  rw [TcpConnection.NothingBuffered, hslots, hpending]
  exact h

/-- A right count is zero where no slot is used. -/
theorem TcpConnection.Counted.eq_zero {connection : TcpConnection} (h : connection.Counted)
    (hempty : ∀ i, (connection.reassembly i).used = false) : connection.reassemblyCount = 0 := by
  have hnone : connection.usedSlots = ∅ := by
    ext i
    simp [hempty i]
  rw [h, hnone, Finset.card_empty]

/-- The state of a run in which every SYN is sent with nothing buffered. -/
structure TcpConnection.FreshSyn (connection : TcpConnection) : Prop where
  bounded : connection.Bounded
  fresh : connection.state = .synSent → connection.NothingBuffered

/-- The step lemma: SYN-SENT is entered by `build_syn` alone, with what the receive side has
then, and nothing is buffered before the handshake. -/
theorem TcpConnection.FreshSyn.step {world : TcpWorld} {op : TcpOp}
    (h : world.connection.FreshSyn) (hop : world.SynFromEmpty op) :
    (world.step op).connection.FreshSyn := by
  refine ⟨op.bounded h.bounded, fun hstate => ?_⟩
  rcases op.synSent_cases h.bounded.slots hstate with
    ⟨hwas, ⟨window, rfl⟩, hside, -⟩ | ⟨hwas, hside, -⟩
  · exact (hop hwas).of_receiveSide hside
  · exact (h.fresh hwas).of_receiveSide hside

/-- The handshake is completed from SYN-SENT, and it keeps what is buffered. -/
theorem TcpConnection.FreshSyn.opensEmpty {world : TcpWorld} (h : world.connection.FreshSyn)
    (op : TcpOp) : world.OpensEmpty op := by
  rintro segment rfl hone
  have hcall := onSegment_spec segment h.bounded.slots
  rw [hone] at hcall
  rw [TcpOp.effect]
  generalize onSegmentFins world.connection segment = n,
    (tcpConnectionOnSegment world.connection segment).2 = last at hcall ⊢
  cases hcall with
  | opened _ _ state =>
      have hempty := (h.fresh state).of_receiveSide
        (world.connection.afterAck_receiveSide segment)
      exact ⟨hempty.1, (h.bounded.afterAck segment).counted.eq_zero hempty.1, hempty.2⟩

/-- A session that ends in LAST-ACK with a segment beyond a gap, and the next handshake. -/
def staleSession : List TcpOp :=
  establishConnection ++
    [.onSegment (peerSegment 9001 1001 (tcpFlagFin ||| tcpFlagAck) []),
      .onSegment (peerSegment 9010 1001 tcpFlagAck [7]),
      .buildFin 64240,
      .onSegment (peerSegment 9002 1002 tcpFlagAck []),
      .buildSyn 64240]

/-- **A slot survives into the next session.** -/
theorem staleSlot_survives :
    let world := run TcpWorld.step TcpWorld.test staleSession
    ¬world.OpensEmpty
      (.onSegment (peerSegment 5000 1003 (tcpFlagSyn ||| tcpFlagAck) [])) := by
  intro world h
  have hempty := (h _ rfl (by decide +kernel)).2.1
  exact absurd hempty (by decide +kernel)

/-- **A completed handshake starts from an empty receive side**, in every run that sends
each SYN from a connection with nothing buffered. -/
theorem handshake_startsEmpty (localPort remotePort : BitVec 16) (initialSequence : BitVec 32)
    (ops : List TcpOp)
    (h : Along TcpWorld.step TcpWorld.SynFromEmpty
      (TcpWorld.init localPort remotePort initialSequence) ops) :
    Along TcpWorld.step TcpWorld.OpensEmpty
      (TcpWorld.init localPort remotePort initialSequence) ops :=
  h.imp_of_invariant (I := fun world : TcpWorld => world.connection.FreshSyn)
    (fun _ _ hfresh hop => hfresh.step hop) (fun _ op hfresh _ => hfresh.opensEmpty op)
    ⟨clearReassembly_bounded _, fun hstate => TcpConnectionState.noConfusion hstate⟩

/-- Two sessions in a row, the second begun with nothing buffered. -/
theorem handshake_startsEmpty_twice :
    Along TcpWorld.step TcpWorld.OpensEmpty TcpWorld.test
      (establishConnection ++
        [.onSegment (peerSegment 9001 1001 (tcpFlagFin ||| tcpFlagAck) []),
          .buildFin 64240,
          .onSegment (peerSegment 9002 1002 tcpFlagAck []),
          .buildSyn 64240,
          .onSegment (peerSegment 5000 1003 (tcpFlagSyn ||| tcpFlagAck) [])]) :=
  handshake_startsEmpty 40000 80 1000 _ (by decide +kernel)

end Netstack
