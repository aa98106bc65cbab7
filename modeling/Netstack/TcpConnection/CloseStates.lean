/-
# What the closing states mean

`TcpHistory.Means` says what a state says about the history of its session: whether
our FIN was sent, whether it was acknowledged, whether the peer's was consumed.
`states_mean` says that every reachable state after a handshake means this,
whatever segments arrive and in whatever order the two sides close.

There is no CLOSING state, neither in the enumeration nor in `process_fin` or
`consume_pending_fin`: the peer's FIN takes FIN-WAIT-1 straight to TIME-WAIT.  So
TIME-WAIT does not mean that our FIN was acknowledged (`simultaneousClose_unacked`).
It is the only state that is short of this, and FIN-WAIT-1 the only way into it.
-/

import Netstack.TcpConnection.Outstanding

namespace Netstack

open Transition (run Along Always always_iff)

/-- Our FIN was sent in this session. -/
def TcpHistory.sent (history : TcpHistory) : Bool := history.fin.isSome

/-- The peer's FIN was consumed in this session. -/
def TcpHistory.peer (history : TcpHistory) : Bool := decide (0 < history.peerFins)

/-- What a state says about its session. -/
def TcpHistory.Means (history : TcpHistory) : TcpConnectionState → Prop
  | .established => history.sent = false ∧ history.peer = false
  | .finWait1 => history.sent = true ∧ history.peer = false
  | .finWait2 => history.sent = true ∧ history.finAcked = true ∧ history.peer = false
  | .closeWait => history.peer = true ∧ history.sent = false
  | .lastAck => history.peer = true ∧ history.sent = true
  | .timeWait => history.sent = true ∧ history.peer = true
  | .closed => history.sent = true ∧ history.finAcked = true ∧ history.peer = true
  | .synSent | .reset => True

instance (history : TcpHistory) (state : TcpConnectionState) : Decidable (history.Means state) := by
  cases state <;> unfold TcpHistory.Means <;> infer_instance

/-- After the handshake the state means what `TcpHistory.Means` says. -/
def TcpWorld.MeansState (world : TcpWorld) : Prop :=
  world.history.established = true → world.history.Means world.connection.state

/-- The call enters TIME-WAIT or CLOSED only with our FIN acknowledged, or TIME-WAIT
from FIN-WAIT-1. -/
def TcpWorld.ClosesAcked (world : TcpWorld) (op : TcpOp) : Prop :=
  let next := world.step op
  next.connection.state ≠ world.connection.state →
    next.connection.state = .timeWait ∨ next.connection.state = .closed →
      next.history.finAcked = true ∨
        world.connection.state = .finWait1 ∧ next.connection.state = .timeWait

/-- **Both sides send their FIN at once.**  The peer's arrives before it has seen ours,
and the connection is in TIME-WAIT with its own FIN unacknowledged. -/
theorem simultaneousClose_unacked :
    let world := run TcpWorld.step TcpWorld.test (establishConnection ++
      [.buildFin 64240, .onSegment (peerSegment 9001 1001 (tcpFlagFin ||| tcpFlagAck) [])])
    world.history.established = true ∧ world.connection.state = .timeWait ∧
      world.history.finAcked = false ∧
      world.connection.sendUnacknowledged ≠ world.connection.sendNext := by
  decide +kernel

/-! ### The invariant -/

/-- What carries the induction over a run: the states mean what they say, also before
the handshake, and our FIN is the last thing sent. -/
structure TcpWorld.Closing (world : TcpWorld) : Prop where
  bounded : world.connection.SlotsBounded
  sendInv : SendInv world.connection
  means : world.MeansState
  opening : world.connection.state = .synSent → world.history.established = false ∧
    world.history.sent = false ∧ world.history.peer = false
  opened : world.connection.state ≠ .closed → world.connection.state ≠ .synSent →
    world.connection.state ≠ .reset → world.history.established = true
  finLast : ∀ fin ∈ world.history.fin, fin.payloadEnd + 1 = world.connection.sendNext
  finAcked : world.history.sent = true →
    world.connection.sendUnacknowledged = world.connection.sendNext →
      world.history.finAcked = true

/-- The history after a call of `tcp_connection_on_segment` with this result that
consumed `n` FINs. -/
def TcpHistory.received (history : TcpHistory) (connection : TcpConnection)
    (segment : TcpSegment) (result : ℤ) (n : ℕ) : TcpHistory :=
  { if connection.acknowledgedBy segment then history.acknowledge segment else history with
    established := history.established || result == 1
    peerFins := history.peerFins + n }

theorem TcpHistory.record_onSegment (history : TcpHistory) (connection : TcpConnection)
    (segment : TcpSegment) :
    history.record connection (.onSegment segment) = history.received connection segment
      (tcpConnectionOnSegment connection segment).1 (onSegmentFins connection segment) := rfl

section Received

variable (history : TcpHistory) (connection : TcpConnection) (segment : TcpSegment) (result : ℤ)
  (n : ℕ)

@[simp] theorem TcpHistory.received_established :
    (history.received connection segment result n).established =
      (history.established || result == 1) := rfl

/-- The record of the peer's FIN is set by the first one that is consumed. -/
@[simp] theorem TcpHistory.received_peer :
    (history.received connection segment result n).peer = (history.peer || decide (0 < n)) := by
  show decide (0 < history.peerFins + n) = (decide (0 < history.peerFins) || decide (0 < n))
  rw [Bool.eq_iff_iff, Bool.or_eq_true, decide_eq_true_eq, decide_eq_true_eq, decide_eq_true_eq]
  omega

@[simp] theorem TcpHistory.received_fin :
    (history.received connection segment result n).fin = history.fin := by
  unfold TcpHistory.received
  split_ifs <;> rfl

@[simp] theorem TcpHistory.received_sent :
    (history.received connection segment result n).sent = history.sent := by
  rw [TcpHistory.sent, TcpHistory.received_fin, TcpHistory.sent]

@[simp] theorem TcpHistory.received_delivered :
    (history.received connection segment result n).delivered = history.delivered := by
  unfold TcpHistory.received
  split_ifs <;> rfl

@[simp] theorem TcpHistory.received_peerFins :
    (history.received connection segment result n).peerFins = history.peerFins + n := rfl

/-- An acknowledgment stays one. -/
theorem TcpHistory.received_finAcked (h : history.finAcked = true) :
    (history.received connection segment result n).finAcked = true := by
  unfold TcpHistory.received TcpHistory.acknowledge
  split_ifs
  · rw [h]
    rfl
  · exact h

end Received

/-- When a call leaves nothing outstanding, our FIN has been acknowledged. -/
theorem TcpWorld.Closing.finAcked_received {connection last : TcpConnection}
    {history : TcpHistory} (h : TcpWorld.Closing ⟨connection, history⟩) {segment : TcpSegment}
    {result : ℤ} {n : ℕ} (hcall : OnSegment segment connection result n last)
    (hsent : history.sent = true) (hall : last.sendUnacknowledged = last.sendNext) :
    (history.received connection segment result n).finAcked = true := by
  obtain ⟨fin, hfin⟩ := Option.isSome_iff_exists.1 hsent
  have hend : fin.payloadEnd + 1 = connection.sendNext := h.finLast fin hfin
  rw [hcall.sendUnacknowledged, hcall.sendNext] at hall
  by_cases hacked : connection.acknowledgedBy segment = true
  · rw [if_pos hacked] at hall
    have hlt : seqLt fin.payloadEnd segment.acknowledgmentNumber = true := by
      rw [hall, ← hend, seqLt_iff]
      have hone := SerialNumber.dist_add_right (a := fin.payloadEnd) (b := fin.payloadEnd) (n := 1)
        (by rw [SerialNumber.dist_self]; decide)
      rw [SerialNumber.dist_self] at hone
      show SerialNumber.dist fin.payloadEnd (fin.payloadEnd + BitVec.ofNat 32 1) < 0
      omega
    unfold TcpHistory.received
    rw [if_pos hacked]
    show (history.finAcked || history.fin.any _) = true
    rw [hfin, Option.any_some, hlt, Bool.or_true]
  · rw [if_neg hacked] at hall
    exact TcpHistory.received_finAcked _ _ _ _ _ (h.finAcked hsent hall)

/-- The closing checks: at most one of them applies, and only when nothing is
outstanding. -/
theorem finishClose_state (connection : TcpConnection) :
    (finishClose connection).state = connection.state ∨
      (finishClose connection).sendUnacknowledged = (finishClose connection).sendNext ∧
        (connection.state = .finWait1 ∧ (finishClose connection).state = .finWait2 ∨
          connection.state = .lastAck ∧ (finishClose connection).state = .closed) := by
  unfold finishClose
  split_ifs with hwait hlast
  · exact Or.inr ⟨hwait.2, Or.inl ⟨hwait.1, rfl⟩⟩
  · exact Or.inr ⟨hlast.2, Or.inr ⟨hlast.1, rfl⟩⟩
  · exact Or.inl rfl

/-- The state behind `n` FINs of the peer. -/
def TcpConnectionState.afterFins (state : TcpConnectionState) (n : ℕ) : TcpConnectionState :=
  if 0 < n then state.onPeerFin else state

/-- The state after `n` FINs of the peer depends on whether there was one. -/
theorem TcpConnectionState.iterate_onPeerFin_eq (state : TcpConnectionState) (n : ℕ) :
    TcpConnectionState.onPeerFin^[n] state = state.afterFins n := by
  unfold TcpConnectionState.afterFins
  split_ifs with hn
  · exact TcpConnectionState.iterate_onPeerFin state hn
  · rw [Nat.eq_zero_of_not_pos hn]
    rfl

/-- **What a call does to the state**: nothing, or an RST, the handshake, or the FINs
it consumed and then one of the closing checks. -/
theorem OnSegment.state_cases {segment : TcpSegment} {connection last : TcpConnection}
    {result : ℤ} {n : ℕ} (h : OnSegment segment connection result n last) :
    (last.state = connection.state ∧ n = 0 ∧ result ≠ 1) ∨
      last.state = .reset ∨
      (connection.state = .synSent ∧ last.state = .established ∧ n = 0 ∧ result = 1) ∨
      (result ≠ 1 ∧ connection.state.receives = true ∧
        (last.state = connection.state.afterFins n ∨
          last.sendUnacknowledged = last.sendNext ∧
            (connection.state.afterFins n = .finWait1 ∧ last.state = .finWait2 ∨
              connection.state.afterFins n = .lastAck ∧ last.state = .closed))) := by
  cases h with
  | misaddressed => exact Or.inl ⟨rfl, rfl, by decide⟩
  | aborted => exact Or.inr (Or.inl rfl)
  | unanswered | mismatched | ignored =>
      exact Or.inl ⟨TcpConnection.afterAck_state .., rfl, by decide⟩
  | opened _ _ state => exact Or.inr (Or.inr (Or.inl ⟨state, rfl, rfl, rfl⟩))
  | refused _ _ _ payload =>
      obtain rfl := payload.fins_of_refused
      exact Or.inl ⟨payload.path.state.trans (TcpConnection.afterAck_state ..), rfl, by decide⟩
  | received _ _ receives payload =>
      have hstate := payload.received_path.state
      rw [TcpConnection.afterAck_state, TcpConnectionState.iterate_onPeerFin_eq] at hstate
      refine Or.inr (Or.inr (Or.inr ⟨by decide, receives, ?_⟩))
      rw [← hstate]
      exact finishClose_state _

/-- An accepted payload never leads to SYN-SENT. -/
theorem Payload.received_ne_synSent {segment : TcpSegment} {connection mid : TcpConnection}
    {n : ℕ} (h : Payload segment (connection.afterAck segment) 0 n mid)
    (hrec : connection.state.receives = true) :
    (finishClose (consumePendingFin (processFin mid segment))).state ≠ .synSent := by
  intro hsyn
  have hpath := h.received_path.state
  rw [TcpConnection.afterAck_state, TcpConnectionState.iterate_onPeerFin_eq] at hpath
  have hclosed := finishClose_state (consumePendingFin (processFin mid segment))
  rw [hpath, hsyn] at hclosed
  revert hclosed hrec
  unfold TcpConnectionState.afterFins
  cases connection.state <;> split_ifs <;>
    simp [TcpConnectionState.receives, TcpConnectionState.onPeerFin]

/-! ### One call -/

/-- Consumed FINs move the state and the history together. -/
theorem TcpHistory.Means.received {history : TcpHistory} {state : TcpConnectionState} {n : ℕ}
    (h : history.Means state) (hn : state.receives = true ∨ n = 0) (connection : TcpConnection)
    (segment : TcpSegment) (result : ℤ) :
    (history.received connection segment result n).Means (state.afterFins n) := by
  have hkeep := history.received_finAcked connection segment result n
  unfold TcpConnectionState.afterFins
  split_ifs with hpos
  · have hrec := hn.resolve_right (by omega)
    cases state <;>
      simp_all [TcpHistory.Means, TcpConnectionState.onPeerFin, TcpConnectionState.receives]
  · rw [Nat.eq_zero_of_not_pos hpos] at hkeep ⊢
    cases state <;> simp_all [TcpHistory.Means]

/-- The state behind an incoming segment means what it says. -/
theorem TcpWorld.Closing.means_received {connection last : TcpConnection}
    {history : TcpHistory} (h : TcpWorld.Closing ⟨connection, history⟩) {segment : TcpSegment}
    {result : ℤ} {n : ℕ} (hcall : OnSegment segment connection result n last) :
    TcpWorld.MeansState ⟨last, history.received connection segment result n⟩ := by
  intro hest
  rw [TcpHistory.received_established] at hest
  show (history.received connection segment result n).Means last.state
  -- outside the handshake the session was established before the call
  have hmeans : result ≠ 1 → history.Means connection.state := fun hres =>
    h.means (by rwa [beq_false_of_ne hres, Bool.or_false] at hest)
  rcases hcall.state_cases with ⟨hstate, rfl, hres⟩ | hstate | ⟨hsyn, hstate, rfl, -⟩ |
    ⟨hres, hrec, hstate | ⟨hall, ⟨hbefore, hstate⟩ | ⟨hbefore, hstate⟩⟩⟩
  · rw [hstate]
    exact (hmeans hres).received (Or.inr rfl) connection segment result
  · rw [hstate]
    trivial
  · obtain ⟨-, hsent, hpeer⟩ := h.opening hsyn
    rw [hstate, TcpHistory.Means, TcpHistory.received_sent, TcpHistory.received_peer]
    exact ⟨hsent, (Bool.or_false _).trans hpeer⟩
  · rw [hstate]
    exact (hmeans hres).received (Or.inl hrec) connection segment result
  · have hwait := (hmeans hres).received (n := n) (Or.inl hrec) connection segment result
    rw [hbefore] at hwait
    have hsent := hwait.1
    rw [TcpHistory.received_sent] at hsent
    rw [hstate]
    exact ⟨hwait.1, h.finAcked_received hcall hsent hall, hwait.2⟩
  · have hlast := (hmeans hres).received (n := n) (Or.inl hrec) connection segment result
    rw [hbefore] at hlast
    have hsent := hlast.2
    rw [TcpHistory.received_sent] at hsent
    rw [hstate]
    exact ⟨hlast.2, h.finAcked_received hcall hsent hall, hlast.1⟩

/-- **An incoming segment keeps what the states mean.** One field after the other: what the state
means is `means_received`; no segment leads to SYN-SENT, so that what held there before still
does; the states behind it are entered with the SYN-ACK only, which opens the record; and the FIN
stays the last thing that was sent, since receiving does not move `send_next`. -/
theorem TcpWorld.Closing.received {connection last : TcpConnection} {history : TcpHistory}
    (h : TcpWorld.Closing ⟨connection, history⟩) {segment : TcpSegment} {result : ℤ} {n : ℕ}
    (hcall : OnSegment segment connection result n last) :
    TcpWorld.Closing ⟨last, history.received connection segment result n⟩ where
  bounded := hcall.slotsBounded h.bounded
  sendInv := hcall.sendInv h.sendInv
  means := h.means_received hcall
  opening := by
    intro hsyn
    -- no call but `build_syn` leads to SYN-SENT
    have hsame : connection.state = .synSent ∧ n = 0 ∧ result ≠ 1 := by
      have hsyn : last.state = .synSent := hsyn
      rcases hcall.state_cases with ⟨hstate, hn, hres⟩ | hstate | ⟨-, hstate, -⟩ |
        ⟨-, hrec, hstate | ⟨-, ⟨-, hstate⟩ | ⟨-, hstate⟩⟩⟩
      · exact ⟨hstate.symm.trans hsyn, hn, hres⟩
      · exact absurd (hstate.symm.trans hsyn) (by decide)
      · exact absurd (hstate.symm.trans hsyn) (by decide)
      · exfalso
        have heq := hstate.symm.trans hsyn
        revert heq hrec
        unfold TcpConnectionState.afterFins
        cases connection.state <;> split_ifs <;> decide
      · exact absurd (hstate.symm.trans hsyn) (by decide)
      · exact absurd (hstate.symm.trans hsyn) (by decide)
    obtain ⟨hstate, rfl, hres⟩ := hsame
    obtain ⟨hest, hsent, hpeer⟩ := h.opening hstate
    refine ⟨?_, ?_, ?_⟩
    · show (history.established || result == 1) = false
      rw [show history.established = false from hest, beq_false_of_ne hres]
      rfl
    · exact (TcpHistory.received_sent ..).trans hsent
    · exact (TcpHistory.received_peer ..).trans ((Bool.or_false _).trans hpeer)
  opened := by
    intro hclosed hsyn hreset
    show (history.established || result == 1) = true
    have hopen : connection.state ≠ .closed → connection.state ≠ .synSent →
        connection.state ≠ .reset → history.established = true := h.opened
    rcases hcall.state_cases with ⟨hstate, -, -⟩ | hstate | ⟨-, -, -, rfl⟩ | ⟨-, hrec, -⟩
    · simp only at hclosed hsyn hreset
      rw [hstate] at hclosed hsyn hreset
      rw [hopen hclosed hsyn hreset, Bool.true_or]
    · exact absurd hstate hreset
    · exact Bool.or_true _
    · have hest : history.established = true := by
        refine hopen ?_ ?_ ?_ <;>
          · intro hstate
            rw [hstate] at hrec
            exact absurd hrec Bool.false_ne_true
      rw [hest, Bool.true_or]
  finLast := by
    intro fin hfin
    rw [TcpHistory.received_fin] at hfin
    exact (h.finLast fin hfin).trans hcall.sendNext.symm
  finAcked := by
    intro hsent hall
    exact h.finAcked_received hcall ((TcpHistory.received_sent ..).symm.trans hsent) hall

/-- A call that touches neither the state nor the send window keeps the invariant, and
so does the timer when it gives up. -/
theorem TcpWorld.Closing.of_quiet {connection next : TcpConnection} {history later : TcpHistory}
    (h : TcpWorld.Closing ⟨connection, history⟩) (hb : next.SlotsBounded) (hinv : SendInv next)
    (huna : next.sendUnacknowledged = connection.sendUnacknowledged)
    (hnext : next.sendNext = connection.sendNext)
    (hstate : next.state = connection.state ∨ next.state = .reset)
    (hlater : later = { history with delivered := later.delivered }) :
    TcpWorld.Closing ⟨next, later⟩ := by
  have hest : later.established = history.established := by rw [hlater]
  have hfin : later.fin = history.fin := by rw [hlater]
  have hsent : later.sent = history.sent := by rw [TcpHistory.sent, hfin, TcpHistory.sent]
  have hpeer : later.peer = history.peer := by rw [hlater]; rfl
  have hacked : later.finAcked = history.finAcked := by rw [hlater]
  refine ⟨hb, hinv, fun hopen => ?_, fun hsyn => ?_, fun hclosed hsyn hreset => ?_,
    fun fin hmem => ?_, fun hs hall => ?_⟩
  · rcases hstate with hstate | hstate
    · have hmeans : history.Means connection.state := h.means (hest.symm.trans hopen)
      show later.Means next.state
      rw [hstate]
      revert hmeans
      cases connection.state <;> simp only [TcpHistory.Means, hsent, hpeer, hacked, imp_self]
    · show later.Means next.state
      rw [hstate]
      trivial
  · rcases hstate with hstate | hstate
    · obtain ⟨h₁, h₂, h₃⟩ := h.opening (hstate.symm.trans hsyn)
      exact ⟨hest.trans h₁, hsent.trans h₂, hpeer.trans h₃⟩
    · exact absurd (hstate.symm.trans hsyn) (by decide)
  · rcases hstate with hstate | hstate
    · simp only at hclosed hsyn hreset
      rw [hstate] at hclosed hsyn hreset
      exact hest.trans (h.opened hclosed hsyn hreset)
    · exact absurd hstate hreset
  · show fin.payloadEnd + 1 = next.sendNext
    rw [hnext]
    exact h.finLast fin (hfin ▸ hmem)
  · have hall : next.sendUnacknowledged = next.sendNext := hall
    rw [huna, hnext] at hall
    exact hacked.trans (h.finAcked (hsent.symm.trans hs) hall)

/-- Where a FIN can be sent none has been, and the peer's was consumed in CLOSE-WAIT. -/
theorem TcpWorld.Closing.sent_eq_false {connection : TcpConnection} {history : TcpHistory}
    (h : TcpWorld.Closing ⟨connection, history⟩)
    (hstate : connection.state = .established ∨ connection.state = .closeWait) :
    history.sent = false ∧ history.peer = decide (connection.state = .closeWait) := by
  have hopen : history.established = true := by
    rcases hstate with heq | heq <;>
      exact h.opened (by rw [heq]; decide) (by rw [heq]; decide) (by rw [heq]; decide)
  have hmeans : history.Means connection.state := h.means hopen
  rcases hstate with heq | heq <;> rw [heq] at hmeans ⊢
  · exact hmeans
  · exact ⟨hmeans.2, hmeans.1⟩

/-- **One call keeps the meaning of the states.** -/
theorem TcpWorld.Closing.step {world : TcpWorld} (h : world.Closing) (op : TcpOp) :
    (world.step op).Closing := by
  obtain ⟨connection, history⟩ := world
  have hb := op.slotsBounded h.bounded
  have hinv := op.sendInv h.bounded h.sendInv
  simp only at hb hinv
  cases op with
  | buildSyn window =>
      rcases buildSyn_cases connection window with ⟨-, heq⟩ | ⟨-, segment, -, heq⟩ <;>
        rw [TcpOp.effect, heq] at hb hinv <;>
        simp only [TcpWorld.step, TcpOp.effect, TcpHistory.record, heq]
      · exact h
      · exact ⟨hb, hinv, fun hopen => absurd hopen Bool.false_ne_true, fun _ => ⟨rfl, rfl, rfl⟩,
          fun _ hsyn => absurd rfl hsyn, fun fin hfin => absurd hfin (Option.not_mem_none _),
          fun hsent => absurd hsent Bool.false_ne_true⟩
  | onSegment segment => exact h.received (onSegment_spec segment h.bounded)
  | buildAck => exact h
  | buildData payload window =>
      rcases buildData_cases connection payload window with
        ⟨-, heq⟩ | ⟨hstate, -, segment, -, heq⟩ <;>
        rw [TcpOp.effect, heq] at hb hinv <;>
        simp only [TcpWorld.step, TcpOp.effect, TcpHistory.record, heq]
      · exact h
      · obtain ⟨hsent, hpeer⟩ := h.sent_eq_false (Or.inl hstate)
        rw [hstate] at hpeer
        have hnone : history.fin = none :=
          Option.isNone_iff_eq_none.1 (Option.isSome_eq_false_iff.1 hsent)
        have hopen : history.established = true :=
          h.opened (by rw [hstate]; decide) (by rw [hstate]; decide) (by rw [hstate]; decide)
        refine ⟨hb, hinv, fun _ => ⟨hsent, hpeer⟩, fun hsyn => ?_, fun _ _ _ => hopen,
          fun fin hfin => ?_, fun hs => ?_⟩
        · have hsyn : TcpConnectionState.established = .synSent := hsyn
          exact absurd hsyn (by decide)
        · exact absurd (hnone.symm.trans hfin) (by simp)
        · exact absurd (hsent.symm.trans hs) Bool.false_ne_true
  | buildFin window =>
      rcases buildFin_cases connection window with
        ⟨-, -, heq⟩ | ⟨state, hstate, segment, hcarries, heq⟩ <;>
        rw [TcpOp.effect, heq] at hb hinv <;>
        simp only [TcpWorld.step, TcpOp.effect, TcpHistory.record, heq]
      · exact h
      · obtain ⟨-, hpeer⟩ := h.sent_eq_false (hstate.imp And.left And.left)
        have hlen : segment.sequenceLength = 1 := hcarries.sequenceLength
        have hnext : (connection.sent segment state).sendNext = connection.sendNext + 1 := by
          rw [TcpConnection.sent, hlen]
          rfl
        have hend : segment.payloadEnd = connection.sendNext := by
          rw [TcpSegment.payloadEnd, hcarries.payload_eq, hcarries.sequenceNumber_eq]
          exact BitVec.add_zero _
        have hopen : history.established = true := by
          rcases hstate with ⟨hwas, -⟩ | ⟨hwas, -⟩ <;>
            exact h.opened (by rw [hwas]; decide) (by rw [hwas]; decide) (by rw [hwas]; decide)
        refine ⟨hb, hinv, fun _ => ?_, fun hsyn => ?_, fun _ _ _ => hopen, fun fin hfin => ?_,
          fun _ hall => ?_⟩
        · rcases hstate with ⟨hwas, rfl⟩ | ⟨hwas, rfl⟩ <;> rw [hwas] at hpeer
          · exact ⟨rfl, hpeer⟩
          · exact ⟨hpeer, rfl⟩
        · have hsyn : state = .synSent := hsyn
          rcases hstate with ⟨-, rfl⟩ | ⟨-, rfl⟩ <;> exact absurd hsyn (by decide)
        · obtain rfl := Option.some.inj hfin
          show segment.payloadEnd + 1 = _
          rw [hnext, hend]
        · -- the FIN itself is outstanding
          have hall : connection.sendNext = (connection.sent segment state).sendNext := hall
          rw [hnext] at hall
          bv_omega
  | tick elapsedMs =>
      rcases tick_connection connection elapsedMs with ⟨_, _, _, heq⟩ | ⟨_, heq⟩ <;>
        rw [TcpOp.effect, heq] at hb hinv <;>
        simp only [TcpWorld.step, TcpOp.effect, TcpHistory.record, heq]
      · exact h.of_quiet hb hinv rfl rfl (Or.inl rfl) rfl
      · exact h.of_quiet hb hinv rfl rfl (Or.inr rfl) rfl
  | read bufferLen =>
      rw [TcpOp.effect, read_eq] at hb hinv
      simp only [TcpWorld.step, TcpOp.effect, TcpHistory.record, read_eq]
      exact h.of_quiet hb hinv rfl rfl (Or.inl rfl) rfl

/-- A new connection is in CLOSED with an empty record, which CLOSED allows. -/
theorem TcpWorld.closing_init (localPort remotePort : BitVec 16) (initialSequence : BitVec 32) :
    (TcpWorld.init localPort remotePort initialSequence).Closing where
  bounded := init_slotsBounded _ _ _
  sendInv := sendInv_init _ _ _
  means := fun hopen => absurd hopen Bool.false_ne_true
  opening := fun hsyn => TcpConnectionState.noConfusion hsyn
  opened := fun hclosed => absurd rfl hclosed
  finLast := fun _ hfin => absurd hfin (Option.not_mem_none _)
  finAcked := fun hsent => absurd hsent Bool.false_ne_true

/-- A call that is not about an incoming segment enters neither TIME-WAIT nor CLOSED. -/
theorem TcpOp.state_of_ne_onSegment {op : TcpOp} {connection : TcpConnection}
    (hop : ∀ segment, op ≠ .onSegment segment)
    (hne : (op.effect connection).state ≠ connection.state) :
    (op.effect connection).state ≠ .timeWait ∧ (op.effect connection).state ≠ .closed := by
  rcases TcpOp.state_cases connection hop with heq | heq | ⟨-, heq⟩ | ⟨-, heq⟩ | ⟨-, heq⟩
  · exact absurd heq hne
  all_goals
    rw [heq]
    exact ⟨TcpConnectionState.noConfusion, TcpConnectionState.noConfusion⟩

/-- **The ways into TIME-WAIT and CLOSED.** -/
theorem TcpWorld.Closing.closesAcked {world : TcpWorld} (h : world.Closing) (op : TcpOp) :
    world.ClosesAcked op := by
  obtain ⟨connection, history⟩ := world
  intro hne hinto
  by_cases hop : ∃ segment, op = .onSegment segment
  swap
  · obtain ⟨htime, hclosed⟩ :=
      TcpOp.state_of_ne_onSegment (fun segment heq => hop ⟨segment, heq⟩) hne
    exact (hinto.elim htime hclosed).elim
  obtain ⟨segment, rfl⟩ := hop
  have hcall := onSegment_spec segment h.bounded
  have hmeans : connection.state.receives = true → history.Means connection.state := by
    intro hrec
    refine h.means (h.opened ?_ ?_ ?_) <;>
      · intro (hstate : connection.state = _)
        rw [hstate] at hrec
        exact absurd hrec Bool.false_ne_true
  change (tcpConnectionOnSegment connection segment).2.state ≠ connection.state at hne
  change (tcpConnectionOnSegment connection segment).2.state = _ ∨
    (tcpConnectionOnSegment connection segment).2.state = _ at hinto
  show (history.received connection segment _ _).finAcked = true ∨ _ ∧
    (tcpConnectionOnSegment connection segment).2.state = _
  rcases hcall.state_cases with ⟨hstate, -, -⟩ | hstate | ⟨-, hstate, -⟩ |
    ⟨-, hrec, hstate | ⟨hall, ⟨-, hstate⟩ | ⟨hbefore, hstate⟩⟩⟩
  · exact absurd hstate hne
  · rw [hstate] at hinto
    exact absurd hinto (by decide)
  · rw [hstate] at hinto
    exact absurd hinto (by decide)
  · -- the peer's FIN, in one of the two FIN-WAIT states
    have hmeans := hmeans hrec
    rw [hstate] at hne hinto ⊢
    revert hmeans hrec hne hinto
    unfold TcpConnectionState.afterFins
    cases hwas : connection.state <;> split_ifs <;>
      simp [TcpConnectionState.receives, TcpConnectionState.onPeerFin, TcpHistory.Means]
    intro _ hacked _
    exact TcpHistory.received_finAcked _ _ _ _ _ hacked
  · rw [hstate] at hinto
    exact absurd hinto (by decide)
  · have hlast := (hmeans hrec).received (n := onSegmentFins connection segment) (Or.inl hrec)
      connection segment (tcpConnectionOnSegment connection segment).1
    rw [hbefore] at hlast
    exact Or.inl (h.finAcked_received hcall ((TcpHistory.received_sent ..).symm.trans hlast.2) hall)

/-! ### Runs -/

/-- **The state means what its name says**, in every state of every run after a
handshake; and TIME-WAIT and CLOSED are entered with our FIN acknowledged, but for
TIME-WAIT entered from FIN-WAIT-1. -/
theorem states_mean (localPort remotePort : BitVec 16) (initialSequence : BitVec 32)
    (ops : List TcpOp) :
    let start := TcpWorld.init localPort remotePort initialSequence
    Always TcpWorld.step TcpWorld.MeansState start ops ∧
      Along TcpWorld.step TcpWorld.ClosesAcked start ops := by
  intro start
  have hinit : start.Closing := TcpWorld.closing_init _ _ _
  constructor
  · intro before _
    exact (Transition.run_invariant (fun _ op h => h.step op) before hinit).means
  · exact Transition.along_of_invariant (fun _ op h => h.step op)
      (fun _ op h => h.closesAcked op) ops hinit

end Netstack
