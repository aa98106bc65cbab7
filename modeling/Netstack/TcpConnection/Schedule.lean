/-
# The retransmission schedule

`tcp_connection_tick` is a timer that fires `retransmit_limit - retransmit_count` times,
with a timeout that doubles up to `TCP_MAX_RTO_MS`, and then gives up: the timer of
`Netstack.Library.Backoff` (`tick_timer`).  That timer counts time without a bound.  The
32-bit counter saturates instead of wrapping, and a saturated counter has reached every
timeout, so the two answer alike.

`retransmission_schedule` spells out what follows for any ticks in a row, from any
reachable connection whose timer is armed.
-/

import Netstack.Library.Backoff
import Netstack.TcpConnection.Timer

namespace Netstack

open Transition (run run_invariant)
open Backoff (Event)

/-! ### The numbers of the timer -/

/-- `min(2 * timeout, TCP_MAX_RTO_MS)` -/
def nextTimeout (timeout : ℕ) : ℕ := min (2 * timeout) 16000

/-- The count and the timeout are in their ranges. -/
structure TcpConnection.TimerBounded (connection : TcpConnection) : Prop where
  count : connection.retransmitCount.toNat ≤ connection.retransmitLimit.toNat
  low : 1000 ≤ connection.retransmitTimeoutMs.toNat
  high : connection.retransmitTimeoutMs.toNat ≤ 16000

/-- The timeout that an acknowledgment of everything and the handshake assign is in range. -/
theorem tcpDefaultRtoMs_bounds :
    1000 ≤ tcpDefaultRtoMs.toNat ∧ tcpDefaultRtoMs.toNat ≤ 16000 := by decide

/-- The backoff does not wrap, because a timeout is 16000 at most before it is doubled. -/
theorem backoff_toNat {timeout : BitVec 32} (h : timeout.toNat ≤ 16000) :
    (backoff timeout).toNat = nextTimeout timeout.toNat := by
  have hmax : tcpMaxRtoMs.toNat = 16000 := by decide
  unfold backoff nextTimeout
  dsimp only
  split_ifs with hlt hdouble
  · rw [gt_iff_lt, BitVec.lt_def] at hdouble
    rw [hmax] at hdouble ⊢
    have : (timeout * 2).toNat = timeout.toNat * 2 := by
      rw [BitVec.toNat_mul]
      exact Nat.mod_eq_of_lt (by simp; omega)
    omega
  · rw [gt_iff_lt, BitVec.lt_def] at hdouble
    rw [hmax] at hdouble
    have : (timeout * 2).toNat = timeout.toNat * 2 := by
      rw [BitVec.toNat_mul]
      exact Nat.mod_eq_of_lt (by simp; omega)
    omega
  · rw [BitVec.lt_def, hmax] at hlt
    omega

/-- **The timer addition saturates.** -/
theorem addElapsed_toNat (elapsedMs running : BitVec 32) :
    (addElapsed elapsedMs running).toNat = min (running.toNat + elapsedMs.toNat) 4294967295 := by
  have hmax : uint32Max.toNat = 4294967295 := by decide
  have hroom : (uint32Max - running).toNat = 4294967295 - running.toNat := by
    rw [BitVec.toNat_sub_of_le (by rw [BitVec.le_def, hmax]; omega), hmax]
  unfold addElapsed
  split_ifs with hwrap
  · rw [gt_iff_lt, BitVec.lt_def, hroom] at hwrap
    omega
  · rw [gt_iff_lt, BitVec.lt_def, hroom] at hwrap
    rw [BitVec.toNat_add_of_lt (by omega)]
    omega

/-! ### The timer of the connection -/

/-- How many retransmissions are left. -/
def TcpConnection.retransmitsLeft (connection : TcpConnection) : ℕ :=
  connection.retransmitLimit.toNat - connection.retransmitCount.toNat

/-- The timer that the connection runs. -/
def TcpConnection.timer (connection : TcpConnection) : Option Backoff.Timer :=
  if connection.hasRetransmitSegment then
    some ⟨connection.retransmitElapsedMs.toNat, connection.retransmitTimeoutMs.toNat,
      connection.retransmitsLeft⟩
  else none

theorem TcpConnection.timer_of_armed {connection : TcpConnection}
    (h : connection.hasRetransmitSegment = true) :
    connection.timer = some ⟨connection.retransmitElapsedMs.toNat,
      connection.retransmitTimeoutMs.toNat, connection.retransmitsLeft⟩ := if_pos h

/-- The return value that an answer of the timer is. -/
def tickResult : Event → ℤ
  | .off | .wait => 0
  | .fire => 1
  | .giveUp => -1

/-- **One tick is one tick of the timer.** -/
theorem tick_timer {connection : TcpConnection} (h : connection.TimerBounded)
    (elapsedMs : BitVec 32) :
    let answer := Backoff.tick nextTimeout connection.timer elapsedMs.toNat
    let call := tcpConnectionTick connection elapsedMs
    call.result = tickResult answer.1 ∧ call.connection.timer = answer.2 ∧
      call.segment = (if call.result = 1 then some connection.lastSegment else none) := by
  intro answer call
  rcases tick_cases connection elapsedMs with
    ⟨hoff, heq⟩ | ⟨hhas, running, hrun, ⟨hwait, heq⟩ | ⟨hexp, hlimit, heq⟩ | ⟨hexp, hlimit, heq⟩⟩
  · have htimer : connection.timer = none := by simp [TcpConnection.timer, hoff]
    simp [answer, call, heq, htimer, Backoff.tick, tickResult]
  all_goals
    have htimer := TcpConnection.timer_of_armed hhas
    have hleft : connection.retransmitsLeft =
      connection.retransmitLimit.toNat - connection.retransmitCount.toNat := rfl
    have hsum := addElapsed_toNat elapsedMs connection.retransmitElapsedMs
    have hhigh := h.high
    rw [← hrun] at hsum
  · rw [BitVec.lt_def] at hwait
    have hadd : running.toNat = connection.retransmitElapsedMs.toNat + elapsedMs.toNat := by omega
    simp only [answer, call, heq, htimer, Backoff.tick]
    rw [if_pos (by omega)]
    refine ⟨rfl, ?_, rfl⟩
    simp [TcpConnection.timer, TcpConnection.timed, TcpConnection.retransmitsLeft, hhas, hadd]
  · rw [BitVec.le_def] at hexp hlimit
    simp only [answer, call, heq, htimer, Backoff.tick]
    rw [if_neg (by omega), if_pos (by omega)]
    exact ⟨rfl, rfl, rfl⟩
  · rw [BitVec.le_def] at hexp
    rw [BitVec.lt_def] at hlimit
    have hcount : (connection.retransmitCount + 1).toNat =
        connection.retransmitCount.toNat + 1 := by bv_omega
    simp only [answer, call, heq, htimer, Backoff.tick]
    rw [if_neg (by omega), if_neg (by omega)]
    refine ⟨rfl, ?_, rfl⟩
    simp only [TcpConnection.timer, TcpConnection.timed, TcpConnection.retransmitsLeft, hhas,
      if_true, hcount, backoff_toNat hhigh, Nat.sub_sub]
    rfl

/-- A tick keeps the timer in its bounds: it saturates the elapsed time, and doubles a timeout
only up to the cap. -/
theorem tick_timerBounded {connection : TcpConnection} (h : connection.TimerBounded)
    (elapsedMs : BitVec 32) : (tcpConnectionTick connection elapsedMs).connection.TimerBounded := by
  rcases tick_cases connection elapsedMs with
    ⟨-, heq⟩ | ⟨-, running, -, ⟨-, heq⟩ | ⟨-, -, heq⟩ | ⟨-, hlimit, heq⟩⟩ <;> rw [heq]
  · exact h
  · exact ⟨h.count, h.low, h.high⟩
  · exact ⟨h.count, h.low, h.high⟩
  · have hnext := backoff_toNat h.high
    have hlow := h.low
    rw [BitVec.lt_def] at hlimit
    have hcount : (connection.retransmitCount + 1).toNat =
        connection.retransmitCount.toNat + 1 := by bv_omega
    unfold nextTimeout at hnext
    refine ⟨?_, ?_, ?_⟩
    · show (connection.retransmitCount + 1).toNat ≤ connection.retransmitLimit.toNat
      omega
    · show 1000 ≤ (backoff connection.retransmitTimeoutMs).toNat
      omega
    · show (backoff connection.retransmitTimeoutMs).toNat ≤ 16000
      omega

/-! ### The numbers in every reachable state -/

/-- An accepted acknowledgment resets the count, and with nothing outstanding the timeout. -/
theorem TcpConnection.TimerBounded.afterAck {connection : TcpConnection}
    (h : connection.TimerBounded) (segment : TcpSegment) :
    (connection.afterAck segment).TimerBounded := by
  rw [TcpConnection.afterAck_eq]
  split_ifs
  · exact ⟨Nat.zero_le _, tcpDefaultRtoMs_bounds.1, tcpDefaultRtoMs_bounds.2⟩
  · exact ⟨Nat.zero_le _, h.low, h.high⟩
  · exact ⟨h.count, h.low, h.high⟩

/-- The bounds of the timer are about the send side. -/
theorem TcpConnection.TimerBounded.of_sendSide {connection next : TcpConnection}
    (h : connection.TimerBounded) (hside : next.sendSide = connection.sendSide) :
    next.TimerBounded := by
  have hcount : next.retransmitCount = connection.retransmitCount :=
    congrArg TcpSendSide.retransmitCount hside
  have hlimit : next.retransmitLimit = connection.retransmitLimit :=
    congrArg TcpSendSide.retransmitLimit hside
  have htimeout : next.retransmitTimeoutMs = connection.retransmitTimeoutMs :=
    congrArg TcpSendSide.retransmitTimeoutMs hside
  refine ⟨?_, ?_, ?_⟩
  · rw [hcount, hlimit]
    exact h.count
  · rw [htimeout]
    exact h.low
  · rw [htimeout]
    exact h.high

/-- An incoming segment stops the timer, sets it back, or leaves it alone: the timeout it leaves
is the one there was or the default. -/
theorem OnSegment.timerBounded {segment : TcpSegment} {connection last : TcpConnection}
    {result : ℤ} {n : ℕ} (h : OnSegment segment connection result n last)
    (hb : connection.TimerBounded) : last.TimerBounded := by
  have hack := hb.afterAck segment
  cases h with
  | misaddressed => exact hb
  | aborted => exact ⟨hb.count, hb.low, hb.high⟩
  | unanswered | mismatched | ignored => exact hack
  | opened => exact ⟨Nat.zero_le _, tcpDefaultRtoMs_bounds.1, tcpDefaultRtoMs_bounds.2⟩
  | refused _ _ _ payload => exact hack.of_sendSide payload.path.sendSide
  | received _ _ _ payload =>
      have hpath := hack.of_sendSide payload.received_path.sendSide
      unfold finishClose
      split_ifs
      · exact ⟨hpath.count, hpath.low, hpath.high⟩
      · exact ⟨hpath.count, hpath.low, hpath.high⟩
      · exact hpath

/-- The step lemma: a builder starts the timer with the timeout as it is, which is within the
bounds. -/
theorem TcpOp.timerBounded (op : TcpOp) {connection : TcpConnection}
    (hb : connection.SlotsBounded) (h : connection.TimerBounded) :
    (op.effect connection).TimerBounded := by
  cases op with
  | buildSyn window =>
      rcases buildSyn_cases connection window with ⟨-, heq⟩ | ⟨-, segment, -, heq⟩ <;>
        rw [TcpOp.effect, heq] <;> exact ⟨h.count, h.low, h.high⟩
  | onSegment segment => exact (onSegment_spec segment hb).timerBounded h
  | buildAck => exact h
  | buildData payload window =>
      rcases buildData_cases connection payload window with ⟨-, heq⟩ | ⟨-, -, segment, -, heq⟩ <;>
        rw [TcpOp.effect, heq] <;> exact ⟨h.count, h.low, h.high⟩
  | buildFin window =>
      rcases buildFin_cases connection window with ⟨-, -, heq⟩ | ⟨_, -, segment, -, heq⟩ <;>
        rw [TcpOp.effect, heq] <;> exact ⟨h.count, h.low, h.high⟩
  | tick elapsedMs => exact tick_timerBounded h elapsedMs
  | read bufferLen =>
      rw [TcpOp.effect, read_eq]
      exact ⟨h.count, h.low, h.high⟩

theorem timerBounded_init (localPort remotePort : BitVec 16) (initialSequence : BitVec 32) :
    (tcpConnectionInit localPort remotePort initialSequence).TimerBounded :=
  ⟨Nat.zero_le _, tcpDefaultRtoMs_bounds.1, tcpDefaultRtoMs_bounds.2⟩

/-! ### The last built segment -/

/-- The SYN, data segment or FIN that the call builds. -/
def TcpOp.built (connection : TcpConnection) : TcpOp → Option TcpSegment
  | .buildSyn window => (tcpConnectionBuildSyn connection window).segment
  | .buildData payload window => (tcpConnectionBuildData connection payload window).segment
  | .buildFin window => (tcpConnectionBuildFin connection window).segment
  | .onSegment _ | .buildAck _ | .tick _ | .read _ => none

/-- The last SYN, data segment or FIN that the run `ops` builds. -/
def TcpWorld.lastBuilt (world : TcpWorld) : List TcpOp → Option TcpSegment
  | [] => none
  | op :: ops => ((world.step op).lastBuilt ops).or (op.built world.connection)

/-- An incoming segment never arms the timer. -/
theorem OnSegment.armed_of_armed {segment : TcpSegment} {connection last : TcpConnection}
    {result : ℤ} {n : ℕ} (h : OnSegment segment connection result n last)
    (hhas : last.hasRetransmitSegment = true) : connection.hasRetransmitSegment = true := by
  have hack : (connection.afterAck segment).hasRetransmitSegment = true →
      connection.hasRetransmitSegment = true := by
    rw [TcpConnection.afterAck_hasRetransmitSegment]
    split_ifs
    · exact fun hoff => absurd hoff id
    · exact id
  cases h with
  | misaddressed => exact hhas
  | aborted | opened => exact absurd hhas Bool.false_ne_true
  | unanswered | mismatched | ignored => exact hack hhas
  | refused _ _ _ payload =>
      exact hack ((congrArg TcpSendSide.hasRetransmitSegment payload.path.sendSide).symm.trans hhas)
  | received _ _ _ payload =>
      have hside := congrArg TcpSendSide.hasRetransmitSegment payload.received_path.sendSide
      refine hack (hside.symm.trans ?_)
      unfold finishClose at hhas
      split_ifs at hhas <;> exact hhas

/-- **What is remembered is what was built**: a call remembers the segment it builds, and a
call that builds none neither changes the remembered segment nor arms the timer. -/
theorem TcpOp.built_cases (op : TcpOp) {connection : TcpConnection}
    (hb : connection.SlotsBounded) :
    op.built connection = some (op.effect connection).lastSegment ∨
      op.built connection = none ∧
        (op.effect connection).lastSegment = connection.lastSegment ∧
        ((op.effect connection).hasRetransmitSegment = true →
          connection.hasRetransmitSegment = true) := by
  cases op with
  | buildSyn window =>
      rcases buildSyn_cases connection window with ⟨-, heq⟩ | ⟨-, segment, -, heq⟩
      · exact Or.inr (by simp [TcpOp.built, TcpOp.effect, heq])
      · exact Or.inl (by simp [TcpOp.built, TcpOp.effect, heq, TcpConnection.sent])
  | onSegment segment =>
      have hcall := onSegment_spec segment hb
      exact Or.inr ⟨rfl, hcall.lastSegment, hcall.armed_of_armed⟩
  | buildAck => exact Or.inr ⟨rfl, rfl, id⟩
  | buildData payload window =>
      rcases buildData_cases connection payload window with ⟨-, heq⟩ | ⟨-, -, segment, -, heq⟩
      · exact Or.inr (by simp [TcpOp.built, TcpOp.effect, heq])
      · exact Or.inl (by simp [TcpOp.built, TcpOp.effect, heq, TcpConnection.sent])
  | buildFin window =>
      rcases buildFin_cases connection window with ⟨-, -, heq⟩ | ⟨_, -, segment, -, heq⟩
      · exact Or.inr (by simp [TcpOp.built, TcpOp.effect, heq])
      · exact Or.inl (by simp [TcpOp.built, TcpOp.effect, heq, TcpConnection.sent])
  | tick elapsedMs =>
      rcases tick_connection connection elapsedMs with ⟨_, _, _, heq⟩ | ⟨_, heq⟩
      · exact Or.inr (by simp [TcpOp.built, TcpOp.effect, heq, TcpConnection.timed])
      · exact Or.inr (by simp [TcpOp.built, TcpOp.effect, heq, TcpConnection.givenUp])
  | read bufferLen => exact Or.inr (by simp [TcpOp.built, TcpOp.effect, read_eq])

/-- An armed timer has the last built segment, or it was armed before the run and has still
the same one. -/
theorem TcpWorld.lastBuilt_cases (ops : List TcpOp) {world : TcpWorld}
    (hb : world.connection.SlotsBounded) :
    let last := (run TcpWorld.step world ops).connection
    last.hasRetransmitSegment = true →
      world.lastBuilt ops = some last.lastSegment ∨
        world.connection.hasRetransmitSegment = true ∧ world.lastBuilt ops = none ∧
          last.lastSegment = world.connection.lastSegment := by
  induction ops generalizing world with
  | nil => exact fun hhas => Or.inr ⟨hhas, rfl, rfl⟩
  | cons op ops ih =>
      intro last hhas
      have hnext : (world.step op).connection.SlotsBounded := op.slotsBounded hb
      rcases ih hnext hhas with hlast | ⟨harmed, hnone, hsame⟩
      · exact Or.inl (by rw [TcpWorld.lastBuilt, hlast, Option.some_or]; rfl)
      · rw [TcpWorld.lastBuilt, hnone, Option.none_or]
        rcases op.built_cases hb with hbuilt | ⟨hbuilt, hkeep, hwas⟩
        · exact Or.inl (hbuilt.trans (congrArg some hsame.symm))
        · exact Or.inr ⟨hwas harmed, hbuilt, hsame.trans hkeep⟩

/-! ### Ticks in a row -/

/-- The return values of ticks in a row. -/
def tickResults (connection : TcpConnection) : List (BitVec 32) → List ℤ
  | [] => []
  | elapsedMs :: rest =>
    let tick := tcpConnectionTick connection elapsedMs
    tick.result :: tickResults tick.connection rest

/-- The time since the last return of `1`, for ticks with these return values; before the
first one it is `elapsed` and the ticks so far. -/
def sinceResent : ℕ → List (BitVec 32) → List ℤ → ℕ
  | elapsed, elapsedMs :: rest, result :: results =>
    sinceResent (if result = 1 then 0 else elapsed + elapsedMs.toNat) rest results
  | elapsed, [], _ => elapsed
  | elapsed, _ :: _, [] => elapsed

theorem tickResult_eq_one {event : Event} : tickResult event = 1 ↔ event = .fire := by
  cases event <;> decide

theorem tickResult_eq_neg_one {event : Event} : tickResult event = -1 ↔ event = .giveUp := by
  cases event <;> decide

/-- The ticks that return 1 are those at which the timer fires. -/
theorem count_one_map_tickResult (events : List Event) :
    (events.map tickResult).count 1 = events.count .fire := by
  induction events with
  | nil => rfl
  | cons event events ih =>
      rw [List.map_cons, List.count_cons, List.count_cons, ih]
      cases event <;> rfl

theorem neg_one_mem_map_tickResult {events : List Event} :
    -1 ∈ events.map tickResult ↔ .giveUp ∈ events := by
  simp [List.mem_map, tickResult_eq_neg_one]

/-- The time since the last retransmission is the same, counted over the results of the ticks and
over the events of the timer. -/
theorem sinceResent_map (elapsed : ℕ) (ticks : List (BitVec 32)) (events : List Event) :
    sinceResent elapsed ticks (events.map tickResult) =
      Backoff.waitedSince elapsed (ticks.map BitVec.toNat) events := by
  induction ticks generalizing elapsed events with
  | nil => cases events <;> rfl
  | cons elapsedMs rest ih =>
      cases events with
      | nil => rfl
      | cons event events =>
          simp only [List.map_cons, sinceResent, Backoff.waitedSince, tickResult_eq_one, ih]

/-- **Ticks in a row are ticks of the timer.** -/
theorem tickAll_timer (ticks : List (BitVec 32)) {connection : TcpConnection}
    (h : connection.TimerBounded) :
    let times := ticks.map BitVec.toNat
    tickResults connection ticks =
        (Backoff.events nextTimeout connection.timer times).map tickResult ∧
      (tickAll connection ticks).1.timer = Backoff.after nextTimeout connection.timer times ∧
      (tickAll connection ticks).1.TimerBounded ∧
      (tickAll connection ticks).1.lastSegment = connection.lastSegment := by
  induction ticks generalizing connection with
  | nil => exact ⟨rfl, rfl, h, rfl⟩
  | cons elapsedMs rest ih =>
      obtain ⟨hresult, htimer, -⟩ := tick_timer h elapsedMs
      obtain ⟨hresults, hafter, hbounded, hlast⟩ := ih (tick_timerBounded h elapsedMs)
      rw [htimer] at hresults hafter
      refine ⟨?_, hafter, hbounded, hlast.trans ?_⟩
      · simp only [tickResults, List.map_cons, Backoff.events, hresult, hresults]
      · rcases tick_connection connection elapsedMs with ⟨_, _, _, heq⟩ | ⟨_, heq⟩ <;>
          rw [heq] <;> rfl

/-- The abstract timer is there while the connection has a segment to retransmit, and shows its
fields. -/
theorem TcpConnection.timer_eq_some {connection : TcpConnection} {timer : Backoff.Timer}
    (h : connection.timer = some timer) :
    connection.hasRetransmitSegment = true ∧
      connection.retransmitElapsedMs.toNat = timer.waited ∧
      connection.retransmitTimeoutMs.toNat = timer.timeout := by
  unfold TcpConnection.timer at h
  split_ifs at h with hhas
  obtain rfl := Option.some.inj h
  exact ⟨hhas, rfl, rfl⟩

/-- The time counter after a tick of an armed timer: it starts again, or it saturates. -/
theorem tick_retransmitElapsedMs {connection : TcpConnection}
    (hhas : connection.hasRetransmitSegment = true) (elapsedMs : BitVec 32) :
    let call := tcpConnectionTick connection elapsedMs
    call.connection.retransmitElapsedMs.toNat = if call.result = 1 then 0
      else min (connection.retransmitElapsedMs.toNat + elapsedMs.toNat) 4294967295 := by
  intro call
  have hsum := addElapsed_toNat elapsedMs connection.retransmitElapsedMs
  rcases tick_cases connection elapsedMs with
    ⟨hoff, -⟩ | ⟨-, running, hrun, ⟨-, heq⟩ | ⟨-, -, heq⟩ | ⟨-, -, heq⟩⟩
  · exact absurd (hoff.symm.trans hhas) Bool.false_ne_true
  · simp only [call, heq, TcpConnection.timed, hrun, hsum]
    rfl
  · simp only [call, heq, TcpConnection.givenUp, hrun, hsum]
    rfl
  · simp only [call, heq, TcpConnection.timed]
    rfl

/-- The last expiry resets the connection. -/
theorem tick_givesUp {connection : TcpConnection} {elapsedMs : BitVec 32}
    (h : (tcpConnectionTick connection elapsedMs).result = -1) :
    (tcpConnectionTick connection elapsedMs).connection.state = .reset ∧
      (tcpConnectionTick connection elapsedMs).connection.hasRetransmitSegment = false := by
  rcases tick_cases connection elapsedMs with
    ⟨-, heq⟩ | ⟨-, running, -, ⟨-, heq⟩ | ⟨-, -, heq⟩ | ⟨-, -, heq⟩⟩ <;> rw [heq] at h ⊢
  · exact absurd h (by decide : (0 : ℤ) ≠ -1)
  · exact absurd h (by decide : (0 : ℤ) ≠ -1)
  · exact ⟨rfl, rfl⟩
  · exact absurd h (by decide : (1 : ℤ) ≠ -1)

/-- However often it is doubled, the timeout stays below its cap. -/
theorem nextTimeout_iterate_le {timeout : ℕ} (h : timeout ≤ 16000) (k : ℕ) :
    nextTimeout^[k] timeout ≤ 16000 := by
  cases k with
  | zero => exact h
  | succ k =>
      rw [Function.iterate_succ_apply']
      exact Nat.min_le_right _ _

/-- **The connection after ticks in a row**, read off their return values. -/
theorem TcpConnection.TimerBounded.tickAll_eq {connection : TcpConnection}
    (h : connection.TimerBounded) (hhas : connection.hasRetransmitSegment = true)
    (ticks : List (BitVec 32)) :
    let results := tickResults connection ticks
    results.count 1 ≤ connection.retransmitsLeft ∧
      (tickAll connection ticks).1.timer = if -1 ∈ results then none
        else some ⟨sinceResent connection.retransmitElapsedMs.toNat ticks results,
          nextTimeout^[results.count 1] connection.retransmitTimeoutMs.toNat,
          connection.retransmitsLeft - results.count 1⟩ := by
  intro results
  obtain ⟨hresults, hafter, -, -⟩ := tickAll_timer ticks h
  rw [TcpConnection.timer_of_armed hhas] at hresults hafter
  obtain ⟨hcount, hstate⟩ := Backoff.after_eq nextTimeout ⟨connection.retransmitElapsedMs.toNat,
    connection.retransmitTimeoutMs.toNat, connection.retransmitsLeft⟩ (ticks.map BitVec.toNat)
  rw [hafter, hstate]
  simp only [results, hresults, count_one_map_tickResult, neg_one_mem_map_tickResult,
    sinceResent_map]
  exact ⟨hcount, trivial⟩

/-- What an armed timer does in the tick after any ticks in a row. -/
structure TcpConnection.TicksAsScheduled (connection : TcpConnection)
    (ticks : List (BitVec 32)) (elapsedMs : BitVec 32) : Prop where
  /-- no more than the retransmissions that are left -/
  sent_le : (tickResults connection ticks).count 1 ≤
    connection.retransmitLimit.toNat - connection.retransmitCount.toNat
  /-- it waits for its current timeout, retransmits, gives up, and is silent from then on -/
  result : (tcpConnectionTick (tickAll connection ticks).1 elapsedMs).result =
    let results := tickResults connection ticks
    if -1 ∈ results then 0
    else if sinceResent connection.retransmitElapsedMs.toNat ticks results + elapsedMs.toNat <
      nextTimeout^[results.count 1] connection.retransmitTimeoutMs.toNat then 0
    else if results.count 1 <
      connection.retransmitLimit.toNat - connection.retransmitCount.toNat then 1
    else -1
  /-- a retransmission is the remembered segment -/
  segment : (tcpConnectionTick (tickAll connection ticks).1 elapsedMs).segment =
    if (tcpConnectionTick (tickAll connection ticks).1 elapsedMs).result = 1
    then some connection.lastSegment else none
  /-- giving up comes after all of the retransmissions, and resets the connection -/
  givesUp : (tcpConnectionTick (tickAll connection ticks).1 elapsedMs).result = -1 →
    (tickResults connection ticks).count 1 =
        connection.retransmitLimit.toNat - connection.retransmitCount.toNat ∧
      (tcpConnectionTick (tickAll connection ticks).1 elapsedMs).connection.state = .reset ∧
      (tcpConnectionTick (tickAll connection ticks).1
        elapsedMs).connection.hasRetransmitSegment = false
  /-- until then the counter is the time since the last retransmission, and saturates -/
  elapsed : -1 ∉ tickResults connection ticks →
    (tickAll connection ticks).1.retransmitElapsedMs.toNat =
        sinceResent connection.retransmitElapsedMs.toNat ticks (tickResults connection ticks) ∧
      (tickAll connection ticks).1.retransmitTimeoutMs.toNat =
        nextTimeout^[(tickResults connection ticks).count 1]
          connection.retransmitTimeoutMs.toNat ∧
      (tcpConnectionTick (tickAll connection ticks).1
          elapsedMs).connection.retransmitElapsedMs.toNat =
        if (tcpConnectionTick (tickAll connection ticks).1 elapsedMs).result = 1 then 0
        else min ((tickAll connection ticks).1.retransmitElapsedMs.toNat + elapsedMs.toNat)
          4294967295

/-- **The ticks run the schedule**: the connection simulates the abstract timer, so that what the
library proves of its events holds of the results of the ticks. The cases are those of a tick: it
waits, it fires, or it gives up. -/
theorem TcpConnection.TimerBounded.ticksAsScheduled {connection : TcpConnection}
    (h : connection.TimerBounded) (hhas : connection.hasRetransmitSegment = true)
    (ticks : List (BitVec 32)) (elapsedMs : BitVec 32) :
    connection.TicksAsScheduled ticks elapsedMs := by
  obtain ⟨-, -, hbounded, hlast⟩ := tickAll_timer ticks h
  obtain ⟨hcount, htimer⟩ := h.tickAll_eq hhas ticks
  obtain ⟨hresult, -, hsegment⟩ := tick_timer hbounded elapsedMs
  rw [htimer] at hresult
  have hscheduled : (tcpConnectionTick (tickAll connection ticks).1 elapsedMs).result =
      if -1 ∈ tickResults connection ticks then 0
      else if sinceResent connection.retransmitElapsedMs.toNat ticks
          (tickResults connection ticks) + elapsedMs.toNat <
        nextTimeout^[(tickResults connection ticks).count 1]
          connection.retransmitTimeoutMs.toNat then 0
      else if (tickResults connection ticks).count 1 < connection.retransmitsLeft then 1
      else -1 := by
    rw [hresult]
    by_cases hgone : -1 ∈ tickResults connection ticks
    · rw [if_pos hgone, if_pos hgone]
      rfl
    · rw [if_neg hgone, if_neg hgone, Backoff.tick]
      dsimp only
      split_ifs <;> first | rfl | omega
  refine ⟨hcount, hscheduled, hlast ▸ hsegment, fun hgives => ?_, fun hrunning => ?_⟩
  · refine ⟨?_, tick_givesUp hgives⟩
    rw [hscheduled] at hgives
    split_ifs at hgives with hgone hwait hleft
    exact Nat.le_antisymm hcount (Nat.le_of_not_lt hleft)
  · rw [if_neg hrunning] at htimer
    obtain ⟨harmed, helapsed, htimeout⟩ := TcpConnection.timer_eq_some htimer
    exact ⟨helapsed, htimeout, tick_retransmitElapsedMs harmed elapsedMs⟩

/-- **In enough time all of the retransmissions are made and the timer gives up.** -/
theorem TcpConnection.TimerBounded.comes_to_end {connection : TcpConnection}
    (h : connection.TimerBounded) (hhas : connection.hasRetransmitSegment = true)
    {blocks : List (List (BitVec 32))} (hlen : connection.retransmitsLeft < blocks.length)
    (hblocks : ∀ ticks ∈ blocks, 16000 ≤ (ticks.map BitVec.toNat).sum) :
    (tickResults connection blocks.flatten).count 1 = connection.retransmitsLeft ∧
      -1 ∈ tickResults connection blocks.flatten := by
  obtain ⟨hresults, -, -, -⟩ := tickAll_timer blocks.flatten h
  rw [TcpConnection.timer_of_armed hhas, List.map_flatten] at hresults
  have htimes : ∀ times ∈ blocks.map (List.map BitVec.toNat), 16000 ≤ times.sum := by
    intro times hmem
    obtain ⟨ticks, hticks, rfl⟩ := List.mem_map.1 hmem
    exact hblocks ticks hticks
  have hend := @Backoff.giveUp_mem_events nextTimeout 16000 (by decide)
    (blocks.map (List.map BitVec.toNat)) ⟨connection.retransmitElapsedMs.toNat,
      connection.retransmitTimeoutMs.toNat, connection.retransmitsLeft⟩
    (nextTimeout_iterate_le h.high) htimes (by rw [List.length_map]; exact hlen)
  rw [hresults, count_one_map_tickResult, neg_one_mem_map_tickResult]
  exact ⟨Backoff.count_fire_of_giveUp nextTimeout hend, hend⟩

/-- **The retransmission schedule.**  In every reachable state the count and the timeout are
in their ranges.  If the timer is armed, the remembered segment is the last one built, any
ticks in a row go as scheduled, and in enough time they come to the end of the schedule. -/
theorem retransmission_schedule (localPort remotePort : BitVec 16) (initialSequence : BitVec 32)
    (ops : List TcpOp) :
    let start := TcpWorld.init localPort remotePort initialSequence
    let connection := (run TcpWorld.step start ops).connection
    let left := connection.retransmitLimit.toNat - connection.retransmitCount.toNat
    connection.retransmitCount ≤ connection.retransmitLimit ∧
      1000 ≤ connection.retransmitTimeoutMs ∧ connection.retransmitTimeoutMs ≤ 16000 ∧
      (connection.hasRetransmitSegment = true →
        start.lastBuilt ops = some connection.lastSegment ∧
        (∀ ticks elapsedMs, connection.TicksAsScheduled ticks elapsedMs) ∧
        ∀ blocks : List (List (BitVec 32)), left < blocks.length →
          (∀ ticks ∈ blocks, 16000 ≤ (ticks.map BitVec.toNat).sum) →
          (tickResults connection blocks.flatten).count 1 = left ∧
            -1 ∈ tickResults connection blocks.flatten) := by
  intro start connection left
  have hreach : connection.SlotsBounded ∧ connection.TimerBounded :=
    run_invariant (I := fun world : TcpWorld => world.connection.SlotsBounded ∧
        world.connection.TimerBounded)
      (fun _ op h => ⟨op.slotsBounded h.1, op.timerBounded h.1 h.2⟩) ops
      ⟨init_slotsBounded _ _ _, timerBounded_init _ _ _⟩
  obtain ⟨-, htimer⟩ := hreach
  refine ⟨BitVec.le_def.2 htimer.count, BitVec.le_def.2 htimer.low, BitVec.le_def.2 htimer.high,
    fun hhas => ⟨?_, htimer.ticksAsScheduled hhas, fun blocks => htimer.comes_to_end hhas⟩⟩
  rcases TcpWorld.lastBuilt_cases ops (init_slotsBounded _ _ _) hhas with hlast | ⟨hoff, -⟩
  · exact hlast
  · exact absurd hoff Bool.false_ne_true

end Netstack
