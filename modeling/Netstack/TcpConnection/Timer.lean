/-
# Who waits for an answer has its timer armed

In SYN-SENT, FIN-WAIT-1 and LAST-ACK the connection waits for the answer to a
segment of its own, its SYN or its FIN.  The timer should be armed with this
segment (`TcpWorld.Armed`), so that ticks send it again and in the end reset the
connection; `tickAll_resets` is what the timer does then.

ACK processing comes before the handshake and before the closing checks, and it
disarms the timer on its own condition.  It leaves a waiting connection without a
timer in two cases, and `armed_iff` says that there is no third: in SYN-SENT the
acknowledgment is not a SYN-ACK (`bareAck_disarms`), or the payload of the segment
that acknowledges the FIN is refused, and the call returns before the closing
checks.
-/

import Netstack.TcpConnection.Outstanding
import Netstack.TcpConnection.Reach

namespace Netstack

open Transition (run Along Always always_iff along_congr)

/-- The states that wait for the answer to a segment of our own. -/
def TcpConnectionState.waits : TcpConnectionState → Bool
  | .synSent | .finWait1 | .lastAck => true
  | .closed | .established | .finWait2 | .closeWait | .timeWait | .reset => false

/-- The segment that a state waits for the answer to. -/
def TcpHistory.awaited (history : TcpHistory) : TcpConnectionState → Option TcpSegment
  | .synSent => history.syn
  | .finWait1 | .lastAck => history.fin
  | .closed | .established | .finWait2 | .closeWait | .timeWait | .reset => none

/-- A connection that waits for an answer has its timer armed with its SYN or its FIN. -/
def TcpWorld.Armed (world : TcpWorld) : Prop :=
  world.connection.state.waits = true → world.connection.hasRetransmitSegment = true ∧
    world.history.awaited world.connection.state = some world.connection.lastSegment

instance (world : TcpWorld) : Decidable world.Armed := inferInstanceAs (Decidable (_ → _))

/-- The acknowledgment of the segment is accepted and leaves nothing outstanding. -/
def TcpConnection.AcknowledgesAll (connection : TcpConnection) (segment : TcpSegment) : Prop :=
  connection.acknowledgedBy segment = true ∧ segment.acknowledgmentNumber = connection.sendNext

/-- A segment that acknowledges everything ends the wait: it is a SYN-ACK in SYN-SENT,
and its payload is not refused in FIN-WAIT-1 or LAST-ACK. -/
def TcpWorld.EndsWait (world : TcpWorld) (op : TcpOp) : Prop :=
  ∀ segment, op = .onSegment segment → world.connection.AcknowledgesAll segment →
    (world.connection.state = .synSent → segment.isSynAck = true) ∧
      (world.connection.state = .finWait1 ∨ world.connection.state = .lastAck →
        ¬world.connection.Refuses segment)

/-- **A bare ACK in SYN-SENT.**  It acknowledges the SYN without answering it, and the
connection waits on with its timer off. -/
theorem bareAck_disarms :
    ¬Always TcpWorld.step TcpWorld.Armed TcpWorld.test
      [.buildSyn 64240, .onSegment (peerSegment 9000 1001 tcpFlagAck [])] := by
  intro h
  exact absurd (h _ List.prefix_rfl) (by decide +kernel)

/-! ### What ticks do -/

/-- `tcp_connection_tick` called again and again: the connection after it, and the
segments to send. -/
def tickAll (connection : TcpConnection) : List (BitVec 32) → TcpConnection × List TcpSegment
  | [] => (connection, [])
  | elapsedMs :: rest =>
    let tick := tcpConnectionTick connection elapsedMs
    ((tickAll tick.connection rest).1, tick.segment.toList ++ (tickAll tick.connection rest).2)

/-- The timer addition adds, unless it has come to an end that no timeout is above. -/
theorem addElapsed_eq_of_lt {elapsedMs running timeout : BitVec 32}
    (h : addElapsed elapsedMs running < timeout) :
    (addElapsed elapsedMs running).toNat = running.toNat + elapsedMs.toNat := by
  have hmax : uint32Max.toNat = 4294967295 := by decide
  unfold addElapsed at h ⊢
  split_ifs at h ⊢ with hwrap
  · rw [BitVec.lt_def, hmax] at h
    omega
  · rw [gt_iff_lt, BitVec.not_lt, BitVec.le_def, BitVec.toNat_sub_of_le, hmax] at hwrap
    · exact BitVec.toNat_add_of_lt (by omega)
    · rw [BitVec.le_def, hmax]
      omega

/-- Ticks without a segment to retransmit do nothing. -/
theorem tickAll_of_off {connection : TcpConnection}
    (h : connection.hasRetransmitSegment = false) (elapsed : List (BitVec 32)) :
    tickAll connection elapsed = (connection, []) := by
  induction elapsed with
  | nil => rfl
  | cons elapsedMs rest ih =>
      rcases tick_cases connection elapsedMs with ⟨-, heq⟩ | ⟨hhas, -⟩
      · rw [tickAll, heq, ih]
        rfl
      · exact absurd (h.symm.trans hhas) Bool.false_ne_true

/-- How many ticks the timer can still run: every retransmission that is left is at
most a full turn of the millisecond counter away. -/
def TcpConnection.ticksLeft (connection : TcpConnection) : ℕ :=
  (connection.retransmitLimit.toNat - connection.retransmitCount.toNat) * 2 ^ 32 +
    (2 ^ 32 - connection.retransmitElapsedMs.toNat)

/-- What a bound on the ticks still to come is computed from. -/
theorem TcpConnection.ticksLeft_timed (connection : TcpConnection)
    (elapsed count timeout : BitVec 32) :
    (connection.timed elapsed count timeout).ticksLeft =
      (connection.retransmitLimit.toNat - count.toNat) * 2 ^ 32 +
        (2 ^ 32 - elapsed.toNat) := rfl

/-- The bound in multiples of the largest time a tick can add up to. -/
theorem TcpConnection.ticksLeft_timed_le (connection : TcpConnection)
    (elapsed count timeout : BitVec 32) :
    (connection.timed elapsed count timeout).ticksLeft ≤
      (connection.retransmitLimit.toNat - count.toNat + 1) * 2 ^ 32 := by
  rw [TcpConnection.ticksLeft_timed, Nat.succ_mul]
  exact Nat.add_le_add_left (Nat.sub_le _ _) _

/-- **An armed timer retransmits until its limit and then resets the connection**,
whatever positive times the ticks report. -/
theorem tickAll_resets (elapsed : List (BitVec 32)) {connection : TcpConnection}
    (hhas : connection.hasRetransmitSegment = true) (hpos : ∀ e ∈ elapsed, 0 < e)
    (hlen : connection.ticksLeft ≤ elapsed.length) :
    (tickAll connection elapsed).1.state = .reset ∧
      (tickAll connection elapsed).2 = List.replicate
        (connection.retransmitLimit.toNat - connection.retransmitCount.toNat)
        connection.lastSegment := by
  induction elapsed generalizing connection with
  | nil =>
      have hlt := connection.retransmitElapsedMs.isLt
      rw [TcpConnection.ticksLeft, List.length_nil] at hlen
      omega
  | cons elapsedMs rest ih =>
      have hrest : ∀ e ∈ rest, 0 < e := fun e he => hpos e (List.mem_cons_of_mem _ he)
      have hone : 0 < elapsedMs.toNat := BitVec.lt_def.1 (hpos _ List.mem_cons_self)
      rw [TcpConnection.ticksLeft, List.length_cons] at hlen
      rcases tick_cases connection elapsedMs with
        ⟨hoff, -⟩ | ⟨-, running, hrun, ⟨hwait, heq⟩ | ⟨-, hlimit, heq⟩ | ⟨-, hlimit, heq⟩⟩
      · exact absurd (hoff.symm.trans hhas) Bool.false_ne_true
      · -- the timer runs on
        rw [hrun] at hwait
        have hadd := addElapsed_eq_of_lt hwait
        rw [← hrun] at hadd
        have := @ih (connection.timed running connection.retransmitCount
          connection.retransmitTimeoutMs) hhas hrest (by
            rw [TcpConnection.ticksLeft_timed]
            omega)
        rw [tickAll, heq]
        exact this
      · -- the last retransmission expired
        rw [tickAll, heq, tickAll_of_off rfl, Nat.sub_eq_zero_of_le (BitVec.le_def.1 hlimit)]
        exact ⟨rfl, rfl⟩
      · -- the segment is sent again
        have hcount : (connection.retransmitCount + 1).toNat =
            connection.retransmitCount.toNat + 1 := by bv_omega
        obtain ⟨m, hm⟩ : ∃ m, connection.retransmitLimit.toNat -
            connection.retransmitCount.toNat = m + 1 :=
          ⟨_, (Nat.succ_pred_eq_of_pos (Nat.sub_pos_of_lt (BitVec.lt_def.1 hlimit))).symm⟩
        have hleft : connection.retransmitLimit.toNat -
            (connection.retransmitCount + 1).toNat = m := by omega
        have hroom : (m + 1) * 2 ^ 32 ≤ rest.length := by
          have hlt := connection.retransmitElapsedMs.isLt
          rw [hm] at hlen
          generalize (m + 1) * 2 ^ 32 = budget at hlen ⊢
          omega
        have := @ih (connection.timed 0 (connection.retransmitCount + 1)
          (backoff connection.retransmitTimeoutMs)) hhas hrest
          ((connection.ticksLeft_timed_le ..).trans (hleft.symm ▸ hroom))
        rw [tickAll, heq, hm, List.replicate_succ]
        refine ⟨this.1, congrArg (_ :: ·) (this.2.trans ?_)⟩
        show List.replicate (connection.retransmitLimit.toNat -
          (connection.retransmitCount + 1).toNat) connection.lastSegment = _
        rw [hleft]

/-! ### One call -/

/-- Receiving leaves the segment that would be sent again. -/
theorem OnSegment.lastSegment {segment : TcpSegment} {connection last : TcpConnection}
    {result : ℤ} {n : ℕ} (h : OnSegment segment connection result n last) :
    last.lastSegment = connection.lastSegment := by
  cases h with
  | misaddressed | aborted => rfl
  | unanswered | mismatched | ignored => exact TcpConnection.afterAck_lastSegment ..
  | opened => exact TcpConnection.afterAck_lastSegment ..
  | refused _ _ _ payload =>
      exact (congrArg TcpSendSide.lastSegment payload.path.sendSide).trans
        (TcpConnection.afterAck_lastSegment ..)
  | received _ _ _ payload =>
      have hside := congrArg TcpSendSide.lastSegment payload.received_path.sendSide
      refine Eq.trans ?_ (hside.trans (TcpConnection.afterAck_lastSegment ..))
      unfold finishClose
      split_ifs <;> rfl

/-- The acknowledgment disarms the timer exactly when it leaves nothing outstanding. -/
theorem TcpConnection.afterAck_armed {connection : TcpConnection} {segment : TcpSegment}
    (hports : connection.addressedBy segment = true)
    (hrst : segment.hasFlag tcpFlagRst = false) :
    (connection.afterAck segment).hasRetransmitSegment = true ↔
      connection.hasRetransmitSegment = true ∧ ¬connection.AcknowledgesAll segment := by
  rw [TcpConnection.afterAck_hasRetransmitSegment, TcpConnection.AcknowledgesAll,
    TcpConnection.acknowledgedBy_eq hports hrst]
  split_ifs with hall
  · exact iff_of_false id (fun h => h.2 hall)
  · exact (and_iff_left hall).symm

/-- **What keeps waiting.**  A call that ends in a waiting state did not change the
state, and it disarmed the timer exactly if it acknowledged everything. -/
theorem OnSegment.of_waits {segment : TcpSegment} {connection last : TcpConnection} {result : ℤ}
    {n : ℕ} (h : OnSegment segment connection result n last) (hw : last.state.waits = true) :
    last.state = connection.state ∧ (last.hasRetransmitSegment = true ↔
      connection.hasRetransmitSegment = true ∧ ¬connection.AcknowledgesAll segment) := by
  cases h with
  | misaddressed ports =>
      refine ⟨rfl, (and_iff_left fun hall => ?_).symm⟩
      have := hall.1
      rw [TcpConnection.acknowledgedBy, ports] at this
      exact Bool.false_ne_true this
  | aborted => exact absurd hw Bool.false_ne_true
  | unanswered ports rst | mismatched ports rst | ignored ports rst =>
      exact ⟨TcpConnection.afterAck_state .., TcpConnection.afterAck_armed ports rst⟩
  | opened => exact absurd hw Bool.false_ne_true
  | refused ports rst _ payload =>
      obtain rfl := payload.fins_of_refused
      refine ⟨payload.path.state.trans (TcpConnection.afterAck_state ..), ?_⟩
      rw [← TcpConnection.afterAck_armed ports rst]
      exact iff_of_eq (congrArg (· = true)
        (congrArg TcpSendSide.hasRetransmitSegment payload.path.sendSide))
  | @received n mid ports rst _ payload =>
      have hpath := payload.received_path
      have hstate := hpath.state
      rw [TcpConnection.afterAck_state] at hstate
      have hhas := congrArg TcpSendSide.hasRetransmitSegment hpath.sendSide
      revert hw
      unfold finishClose
      split_ifs with hwait hlast
      · exact fun hw => absurd hw Bool.false_ne_true
      · exact fun hw => absurd hw Bool.false_ne_true
      intro hw
      constructor
      · rcases Nat.eq_zero_or_pos (n + (mid.finDue segment).toNat +
          (processFin mid segment).pendingFinDue.toNat) with hzero | hpos
        · rw [hstate, hzero]
          rfl
        · rw [TcpConnectionState.iterate_onPeerFin _ hpos] at hstate
          rw [hstate] at hw ⊢
          revert hw
          cases connection.state <;>
            simp [TcpConnectionState.onPeerFin, TcpConnectionState.waits]
      · rw [← TcpConnection.afterAck_armed ports rst]
        exact iff_of_eq (congrArg (· = true) hhas)

/-- **What a full acknowledgment does to a waiting connection**: it waits on exactly
when it was not answered, or its payload was refused. -/
theorem OnSegment.waits_iff {segment : TcpSegment} {connection last : TcpConnection} {result : ℤ}
    {n : ℕ} (h : OnSegment segment connection result n last) (hb : connection.SlotsBounded)
    (hinv : SendInv connection) (hw : connection.state.waits = true)
    (hall : connection.AcknowledgesAll segment) :
    last.state.waits = false ↔
      (connection.state = .synSent → segment.isSynAck = true) ∧
        (connection.state = .finWait1 ∨ connection.state = .lastAck →
          ¬connection.Refuses segment) := by
  obtain ⟨hacked, hnumber⟩ := hall
  cases h with
  | misaddressed ports =>
      rw [TcpConnection.acknowledgedBy, ports] at hacked
      exact absurd hacked Bool.false_ne_true
  | aborted ports rst =>
      rw [TcpConnection.acknowledgedBy, rst, Bool.not_true, Bool.false_and, Bool.and_false] at hacked
      exact absurd hacked Bool.false_ne_true
  | unanswered _ _ state synAck =>
      rw [TcpConnection.afterAck_state, hw]
      refine iff_of_false (fun h => absurd h.symm Bool.false_ne_true) fun h => ?_
      exact absurd (synAck.symm.trans (h.1 state)) Bool.false_ne_true
  | mismatched _ _ _ _ number => exact absurd hnumber number
  | opened _ _ state synAck =>
      refine iff_of_true rfl ⟨fun _ => synAck, fun h => ?_⟩
      rw [state] at h
      exact absurd h (by decide)
  | ignored _ _ state receives =>
      revert hw state receives
      cases connection.state <;>
        simp [TcpConnectionState.waits, TcpConnectionState.receives]
  | refused _ _ receives payload =>
      obtain rfl := payload.fins_of_refused
      have hrefuses := TcpConnection.refuses_afterAck.1
        ((payload.refused_iff (hb.afterAck segment)).1 rfl)
      have hstate : last.state = connection.state :=
        payload.path.state.trans (TcpConnection.afterAck_state ..)
      rw [hstate, hw]
      refine iff_of_false (fun h => absurd h.symm Bool.false_ne_true) fun h => h.2 ?_ hrefuses
      revert hw receives
      cases connection.state <;>
        simp [TcpConnectionState.waits, TcpConnectionState.receives]
  | @received n mid _ _ receives payload =>
      have haccepted : ¬connection.Refuses segment := fun hrefuses =>
        absurd ((payload.refused_iff (hb.afterAck segment)).2
          (TcpConnection.refuses_afterAck.2 hrefuses)) (by decide)
      refine iff_of_true ?_ ⟨fun h => absurd h (TcpConnectionState.ne_synSent_of_receives receives),
        fun _ => haccepted⟩
      have hpath := payload.received_path
      have hstate := hpath.state
      rw [TcpConnection.afterAck_state] at hstate
      -- nothing is outstanding when the closing checks are made
      have hdone : (consumePendingFin (processFin mid segment)).sendUnacknowledged =
          (consumePendingFin (processFin mid segment)).sendNext := by
        rw [TcpConnection.acknowledgedBy, Bool.and_eq_true, Bool.and_eq_true] at hacked
        have hflag := ((hinv.acceptsAck_iff segment).1 hacked.2.2).1
        exact ((congrArg TcpSendSide.sendUnacknowledged hpath.sendSide).trans
          (hinv.afterAck_sendNext hflag hnumber)).trans
          ((congrArg TcpSendSide.sendNext hpath.sendSide).trans
            (TcpConnection.afterAck_sendNext ..)).symm
      unfold finishClose
      split_ifs with hwait hlast
      · rfl
      · rfl
      · simp only [hdone, and_true] at hwait hlast
        have hne : (consumePendingFin (processFin mid segment)).state ≠ .synSent := by
          rw [hstate]
          revert receives
          rcases Nat.eq_zero_or_pos (n + (mid.finDue segment).toNat +
            (processFin mid segment).pendingFinDue.toNat) with hzero | hpos
          · rw [hzero]
            exact TcpConnectionState.ne_synSent_of_receives
          · rw [TcpConnectionState.iterate_onPeerFin _ hpos]
            cases connection.state <;>
              simp [TcpConnectionState.onPeerFin, TcpConnectionState.receives]
        revert hwait hlast hne
        cases (consumePendingFin (processFin mid segment)).state <;>
          simp [TcpConnectionState.waits]

/-- An incoming segment is not what is awaited to be sent again. -/
theorem TcpHistory.awaited_onSegment (history : TcpHistory) (connection : TcpConnection)
    (segment : TcpSegment) :
    (history.record connection (.onSegment segment)).awaited = history.awaited := by
  funext state
  unfold TcpHistory.record
  cases state <;> dsimp only [TcpHistory.awaited] <;> split_ifs <;> rfl

/-- A call that is not about an incoming segment leaves a connection armed. -/
theorem TcpWorld.Armed.step_of_ne_onSegment {world : TcpWorld} (h : world.Armed) {op : TcpOp}
    (hop : ∀ segment, op ≠ .onSegment segment) : (world.step op).Armed := by
  obtain ⟨connection, history⟩ := world
  cases op with
  | buildSyn window =>
      unfold TcpWorld.Armed TcpWorld.step
      rcases buildSyn_cases connection window with ⟨-, heq⟩ | ⟨-, segment, -, heq⟩ <;>
        simp only [TcpOp.effect, TcpHistory.record, heq]
      · exact h
      · exact fun _ => ⟨rfl, rfl⟩
  | onSegment segment => exact absurd rfl (hop segment)
  | buildAck => exact h
  | buildData payload window =>
      unfold TcpWorld.Armed TcpWorld.step
      rcases buildData_cases connection payload window with
        ⟨-, heq⟩ | ⟨-, -, segment, -, heq⟩ <;> simp only [TcpOp.effect, TcpHistory.record, heq]
      · exact h
      · exact fun hw => absurd hw Bool.false_ne_true
  | buildFin window =>
      unfold TcpWorld.Armed TcpWorld.step
      rcases buildFin_cases connection window with ⟨-, -, heq⟩ | ⟨state, hstate, segment, -, heq⟩ <;>
        simp only [TcpOp.effect, TcpHistory.record, heq]
      · exact h
      · rcases hstate with ⟨-, rfl⟩ | ⟨-, rfl⟩ <;> exact fun _ => ⟨rfl, rfl⟩
  | tick elapsedMs =>
      unfold TcpWorld.Armed TcpWorld.step
      rcases tick_connection connection elapsedMs with ⟨_, _, _, heq⟩ | ⟨_, heq⟩ <;>
        simp only [TcpOp.effect, TcpHistory.record, heq]
      · exact h
      · exact fun hw => absurd hw Bool.false_ne_true
  | read bufferLen =>
      unfold TcpWorld.Armed TcpWorld.step
      simp only [TcpOp.effect, TcpHistory.record, read_eq]
      exact h

/-- **One call** of a connection that is armed where it waits leaves it so exactly when
no full acknowledgment leaves it waiting. -/
theorem TcpWorld.armed_step_iff {world : TcpWorld} (hb : world.connection.SlotsBounded)
    (hinv : SendInv world.connection) (harmed : world.Armed) (op : TcpOp) :
    (world.step op).Armed ↔ world.EndsWait op := by
  by_cases hop : ∃ segment, op = .onSegment segment
  swap
  · have hne : ∀ segment, op ≠ .onSegment segment := fun segment heq => hop ⟨segment, heq⟩
    exact iff_of_true (harmed.step_of_ne_onSegment hne) (fun segment heq => absurd heq (hne segment))
  obtain ⟨segment, rfl⟩ := hop
  have hcall := onSegment_spec segment hb
  have hlast := hcall.lastSegment
  constructor
  · rintro h segment' heq hall
    obtain rfl := TcpOp.onSegment.inj heq
    -- only the states that wait are restricted
    cases hw : world.connection.state.waits with
    | false =>
        refine ⟨fun hstate => ?_, ?_⟩
        · rw [hstate] at hw
          exact absurd hw.symm Bool.false_ne_true
        · rintro (hstate | hstate) <;> rw [hstate] at hw <;>
            exact absurd hw.symm Bool.false_ne_true
    | true =>
        refine (hcall.waits_iff hb hinv hw hall).1 ?_
        by_contra hwaits
        rw [Bool.not_eq_false] at hwaits
        exact ((hcall.of_waits hwaits).2.1 (h hwaits).1).2 hall
  · intro h hwaits
    obtain ⟨hstate, hhas⟩ := hcall.of_waits hwaits
    have hw : world.connection.state.waits = true := hstate ▸ hwaits
    refine ⟨hhas.2 ⟨(harmed hw).1, fun hall => ?_⟩, ?_⟩
    · have hends := (hcall.waits_iff hb hinv hw hall).2 (h segment rfl hall)
      exact absurd (hends.symm.trans hwaits) Bool.false_ne_true
    · rw [TcpWorld.step_history, TcpHistory.awaited_onSegment]
      show world.history.awaited (tcpConnectionOnSegment world.connection segment).2.state =
        some (tcpConnectionOnSegment world.connection segment).2.lastSegment
      rw [hstate, hlast]
      exact (harmed hw).2

/-! ### Runs -/

/-- **The timer of a waiting connection.**  In every state of a run a connection that
waits is armed with its SYN or FIN, if and only if each segment that acknowledged
everything ended the wait.  The ticks of such a connection send this segment
again up to the limit and then reset the connection. -/
theorem armed_iff (localPort remotePort : BitVec 16) (initialSequence : BitVec 32)
    (ops : List TcpOp) :
    let start := TcpWorld.init localPort remotePort initialSequence
    let connection := (run TcpWorld.step start ops).connection
    (Always TcpWorld.step TcpWorld.Armed start ops ↔
        Along TcpWorld.step TcpWorld.EndsWait start ops) ∧
      (Along TcpWorld.step TcpWorld.EndsWait start ops → connection.state.waits = true →
        ∃ ticks, ∀ elapsed : List (BitVec 32), (∀ e ∈ elapsed, 0 < e) → ticks ≤ elapsed.length →
          (tickAll connection elapsed).1.state = .reset ∧
            (tickAll connection elapsed).2 = List.replicate
              (connection.retransmitLimit.toNat - connection.retransmitCount.toNat)
              connection.lastSegment) := by
  intro start connection
  have hiff : Always TcpWorld.step TcpWorld.Armed start ops ↔
      Along TcpWorld.step TcpWorld.EndsWait start ops := by
    have hinit : start.Armed := fun hw => absurd hw Bool.false_ne_true
    rw [always_iff, and_iff_right hinit]
    exact along_congr (I := fun w => w.connection.SlotsBounded ∧ SendInv w.connection ∧ w.Armed)
      (fun w op h => TcpWorld.armed_step_iff h.1 h.2.1 h.2.2 op)
      (fun w op h hop => ⟨op.slotsBounded h.1, op.sendInv h.1 h.2.1,
        (TcpWorld.armed_step_iff h.1 h.2.1 h.2.2 op).2 hop⟩) ops
      ⟨init_slotsBounded _ _ _, sendInv_init _ _ _, hinit⟩
  refine ⟨hiff, fun hends hwaits => ?_⟩
  have harmed : (run TcpWorld.step start ops).Armed := hiff.2 hends ops List.prefix_rfl
  exact ⟨connection.ticksLeft, fun elapsed hpos hlen =>
    tickAll_resets elapsed (harmed hwaits).1 hpos hlen⟩

end Netstack
