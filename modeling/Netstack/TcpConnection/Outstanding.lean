/-
# What is sent stays within reach of the timer

A sequence number that was sent and that no accepted acknowledgment has covered
should lie in `[send_unacknowledged, send_next)` and in the one segment that
`tcp_connection_tick` can send again (`TcpWorld.Retained`).  The builders assign
`send_unacknowledged = send_next` and replace `last_segment`, so this is lost as
soon as something is built while something else is outstanding:
`backToBack_forgets` is the shortest such run.

`retained_iff` says that nothing else loses it.  The sequence numbers of the
history are retained in every state of a run exactly when every accepted builder
call found everything acknowledged, and then `send_unacknowledged` moves only on
accepted acknowledgments.
-/

import Netstack.TcpConnection.SendSide

namespace Netstack

open SerialNumber (dist InRange)
open Transition (run Along Always always_iff along_congr)

/-- Outside RESET, every sequence number that was sent and not acknowledged lies in
`[send_unacknowledged, send_next)` and in the segment the timer is armed with. -/
def TcpWorld.Retained (world : TcpWorld) : Prop :=
  let connection := world.connection
  connection.state ≠ .reset → ∀ x ∈ world.history.unacked,
    InRange connection.sendUnacknowledged
        (connection.sendNext - connection.sendUnacknowledged).toNat x ∧
      connection.hasRetransmitSegment = true ∧
      InRange connection.lastSegment.sequenceNumber connection.lastSegment.sequenceLength x

-- by a walk over the list, not over all `2 ^ 32` sequence numbers
instance (world : TcpWorld) : Decidable world.Retained :=
  haveI := List.decidableBAll (p := fun x =>
    InRange world.connection.sendUnacknowledged
        (world.connection.sendNext - world.connection.sendUnacknowledged).toNat x ∧
      world.connection.hasRetransmitSegment = true ∧
      InRange world.connection.lastSegment.sequenceNumber
        world.connection.lastSegment.sequenceLength x) world.history.unacked
  inferInstanceAs (Decidable (_ → _))

/-- The call moves `send_unacknowledged` only by an accepted acknowledgment. -/
def TcpWorld.AdvancesOnAck (world : TcpWorld) (op : TcpOp) : Prop :=
  (world.step op).connection.sendUnacknowledged ≠ world.connection.sendUnacknowledged →
    ∃ segment, op = .onSegment segment ∧ world.connection.acknowledgedBy segment = true

/-- If the call sends, then nothing is outstanding. -/
def TcpWorld.SendsWhenAcknowledged (world : TcpWorld) (op : TcpOp) : Prop :=
  op.sends world.connection →
    world.connection.sendUnacknowledged = world.connection.sendNext

/-- **Two segments back to back.**  After the second `build_data` the byte 1001 has
been sent and not acknowledged, but the window begins at 1002 and the timer
sends only the second segment again. -/
theorem backToBack_forgets :
    ¬Always TcpWorld.step TcpWorld.Retained TcpWorld.test
      (establishConnection ++ [.buildData [1] 64240, .buildData [2] 64240]) := by
  intro h
  exact absurd (h _ List.prefix_rfl) (by decide +kernel)

/-! ### One step -/

/-- The history and the window say the same. -/
def TcpWorld.Outstanding (world : TcpWorld) : Prop :=
  ∀ x, x ∈ world.history.unacked ↔ InRange world.connection.sendUnacknowledged
    (world.connection.sendNext - world.connection.sendUnacknowledged).toNat x

/-- Receiving never moves `send_next`: only the three builders do. -/
theorem OnSegment.sendNext {segment : TcpSegment} {connection last : TcpConnection} {result : ℤ}
    {n : ℕ} (h : OnSegment segment connection result n last) :
    last.sendNext = connection.sendNext := by
  cases h with
  | misaddressed | aborted => rfl
  | unanswered | mismatched | ignored => exact TcpConnection.afterAck_sendNext ..
  | opened => exact TcpConnection.afterAck_sendNext ..
  | refused _ _ _ payload =>
      exact (congrArg TcpSendSide.sendNext payload.path.sendSide).trans
        (TcpConnection.afterAck_sendNext ..)
  | received _ _ _ payload =>
      have hside := congrArg TcpSendSide.sendNext payload.received_path.sendSide
      refine Eq.trans ?_ (hside.trans (TcpConnection.afterAck_sendNext ..))
      unfold finishClose
      split_ifs <;> rfl

/-- A segment that reaches ACK processing is judged there by `acceptsAck`. -/
theorem TcpConnection.acknowledgedBy_eq {connection : TcpConnection} {segment : TcpSegment}
    (hports : connection.addressedBy segment = true)
    (hrst : segment.hasFlag tcpFlagRst = false) :
    connection.acknowledgedBy segment = connection.acceptsAck segment := by
  rw [TcpConnection.acknowledgedBy, hports, hrst]
  rfl

/-- **A call moves `send_unacknowledged` to the number of an accepted acknowledgment
and nowhere else.** -/
theorem OnSegment.sendUnacknowledged {segment : TcpSegment} {connection last : TcpConnection}
    {result : ℤ} {n : ℕ} (h : OnSegment segment connection result n last) :
    last.sendUnacknowledged =
      if connection.acknowledgedBy segment = true then segment.acknowledgmentNumber
      else connection.sendUnacknowledged := by
  have hack := connection.afterAck_sendUnacknowledged segment
  cases h with
  | misaddressed ports =>
      rw [TcpConnection.acknowledgedBy, ports]
      rfl
  | aborted ports rst =>
      rw [TcpConnection.acknowledgedBy, rst, Bool.not_true, Bool.false_and, Bool.and_false]
      rfl
  | unanswered ports rst | mismatched ports rst | ignored ports rst =>
      rw [TcpConnection.acknowledgedBy_eq ports rst, ← hack]
  | opened ports rst =>
      rw [TcpConnection.acknowledgedBy_eq ports rst, ← hack]
      rfl
  | refused ports rst _ payload =>
      rw [TcpConnection.acknowledgedBy_eq ports rst, ← hack]
      exact congrArg TcpSendSide.sendUnacknowledged payload.path.sendSide
  | received ports rst _ payload =>
      rw [TcpConnection.acknowledgedBy_eq ports rst, ← hack]
      refine Eq.trans ?_ (congrArg TcpSendSide.sendUnacknowledged payload.received_path.sendSide)
      unfold finishClose
      split_ifs <;> rfl

/-- An accepted acknowledgment takes the segments below it out of the record of unacknowledged
ones; any other segment leaves the record. -/
theorem TcpWorld.unacked_onSegment (world : TcpWorld) (segment : TcpSegment) :
    (world.step (.onSegment segment)).history.unacked =
      if world.connection.acknowledgedBy segment = true then
        world.history.unacked.filter fun x => !seqLt x segment.acknowledgmentNumber
      else world.history.unacked := by
  rw [TcpWorld.step_history, TcpHistory.record]
  split_ifs <;> rfl

/-- An incoming segment keeps the two together: an accepted number lies in the window, so that
the numbers before it are the ones that leave the record and the window alike. -/
theorem TcpWorld.Outstanding.onSegment {world : TcpWorld} (h : world.Outstanding)
    (hb : world.connection.SlotsBounded) (hinv : SendInv world.connection)
    (segment : TcpSegment) : (world.step (.onSegment segment)).Outstanding := by
  have hcall := onSegment_spec segment hb
  have hwindow := hinv.window
  have hmax : tcpMaxPayloadLen = 65515 := rfl
  intro x
  have huna : (world.step (.onSegment segment)).connection.sendUnacknowledged = _ :=
    hcall.sendUnacknowledged
  have hnext : (world.step (.onSegment segment)).connection.sendNext = _ := hcall.sendNext
  rw [huna, hnext, TcpWorld.unacked_onSegment]
  split_ifs with hacked
  · have haccepts : world.connection.acceptsAck segment = true := by
      rw [TcpConnection.acknowledgedBy, Bool.and_eq_true, Bool.and_eq_true] at hacked
      exact hacked.2.2
    obtain ⟨-, -, hle⟩ := (hinv.acceptsAck_iff segment).1 haccepts
    rw [List.mem_filter, h x, SerialNumber.inRange_advance hle (by omega), Bool.not_eq_true',
      ← Bool.not_eq_true, seqLt_iff, not_lt]
  · exact h x

/-- The step lemma: a builder that is called with everything acknowledged replaces an empty
record by its own segment, and the retransmission of the last segment adds nothing. -/
theorem TcpWorld.Outstanding.step {world : TcpWorld} (h : world.Outstanding)
    (hb : world.connection.SlotsBounded) (hinv : SendInv world.connection) {op : TcpOp}
    (hop : world.SendsWhenAcknowledged op) : (world.step op).Outstanding := by
  by_cases hseg : ∃ segment, op = .onSegment segment
  · obtain ⟨segment, rfl⟩ := hseg
    exact h.onSegment hb hinv segment
  by_cases hsends : op.sends world.connection
  · obtain ⟨segment, state, -, hseq, -, -, heq, hunacked⟩ := TcpOp.effect_of_sends hsends
    have hlen := segment.sequenceLength_lt
    intro x
    -- nothing was outstanding, so the history is the new segment
    have hold : x ∉ world.history.unacked := by
      rw [h x, hop hsends, SerialNumber.toNat_sub_eq_zero.2 rfl]
      exact SerialNumber.not_inRange_zero _ _
    have hwindow : (world.connection.sendNext + BitVec.ofNat 32 segment.sequenceLength -
        world.connection.sendNext).toNat = segment.sequenceLength := by bv_omega
    rw [TcpWorld.step_connection, heq, TcpWorld.step_history, hunacked, List.mem_append,
      or_iff_right hold, TcpSegment.sequenceNumbers, SerialNumber.mem_range_iff (by omega), hseq]
    show _ ↔ InRange world.connection.sendNext (world.connection.sendNext +
      BitVec.ofNat 32 segment.sequenceLength - world.connection.sendNext).toNat x
    rw [hwindow]
  · obtain ⟨huna, hnext, -, -, hunacked⟩ :=
      TcpOp.effect_of_not_sends hsends (fun segment heq => hseg ⟨segment, heq⟩)
    intro x
    rw [TcpWorld.step_connection, huna, hnext, TcpWorld.step_history, hunacked]
    exact h x

/-- What is outstanding is retained while the send side is in shape. -/
theorem TcpWorld.Outstanding.retained {world : TcpWorld} (h : world.Outstanding)
    (hinv : SendInv world.connection) : world.Retained := by
  obtain ⟨connection, history⟩ := world
  intro hstate x hx
  have hin : InRange connection.sendUnacknowledged
      (connection.sendNext - connection.sendUnacknowledged).toNat x := (h x).1 hx
  have hne : connection.sendUnacknowledged ≠ connection.sendNext := by
    intro heq
    rw [heq, SerialNumber.toNat_sub_eq_zero.2 rfl] at hin
    exact SerialNumber.not_inRange_zero _ _ hin
  have hhas := (hinv.armed hstate).2 hne
  refine ⟨hin, hhas, ?_⟩
  have hend := hinv.ends hhas
  have hbegin := hinv.begins hhas
  have hlen := connection.lastSegment.sequenceLength_lt
  unfold SerialNumber.InRange at hin hbegin ⊢
  rw [hend] at hin
  bv_omega

/-- A builder that is accepted while something is outstanding forgets it. -/
theorem TcpWorld.not_retained_of_sends {world : TcpWorld} (h : world.Outstanding)
    (hinv : SendInv world.connection) {op : TcpOp} (hop : op.sends world.connection)
    (hne : world.connection.sendUnacknowledged ≠ world.connection.sendNext) :
    ¬(world.step op).Retained := by
  obtain ⟨segment, state, hstate, -, -, hle, heq, hunacked⟩ := TcpOp.effect_of_sends hop
  have hwindow := hinv.window
  have hmax : tcpMaxPayloadLen = 65515 := rfl
  have hpos : (world.connection.sendNext - world.connection.sendUnacknowledged).toNat ≠ 0 :=
    fun hzero => hne (SerialNumber.toNat_sub_eq_zero.1 hzero).symm
  have hmem : world.connection.sendUnacknowledged ∈ world.history.unacked := by
    rw [h, SerialNumber.InRange, SerialNumber.toNat_sub_eq_zero.2 rfl]
    omega
  intro hretained
  unfold TcpWorld.Retained at hretained
  rw [TcpWorld.step_connection, heq, TcpWorld.step_history, hunacked] at hretained
  obtain ⟨hin, -⟩ := hretained hstate _ (List.mem_append_left _ hmem)
  -- `send_unacknowledged` was behind the new window
  have hin : (world.connection.sendUnacknowledged - world.connection.sendNext).toNat <
      (world.connection.sendNext + BitVec.ofNat 32 segment.sequenceLength -
        world.connection.sendNext).toNat := hin
  bv_omega

/-- `send_unacknowledged` moves as it should exactly when nothing outstanding is
overwritten. -/
theorem TcpWorld.advancesOnAck_iff {world : TcpWorld} (hb : world.connection.SlotsBounded)
    (op : TcpOp) : world.AdvancesOnAck op ↔ world.SendsWhenAcknowledged op := by
  by_cases hseg : ∃ segment, op = .onSegment segment
  · obtain ⟨segment, rfl⟩ := hseg
    refine iff_of_true (fun hne => ⟨segment, rfl, ?_⟩) (fun hsends => absurd hsends id)
    by_contra hnot
    refine hne ((onSegment_spec segment hb).sendUnacknowledged.trans ?_)
    rw [if_neg hnot]
  by_cases hsends : op.sends world.connection
  · obtain ⟨segment, state, -, -, -, -, heq, -⟩ := TcpOp.effect_of_sends hsends
    have huna : (world.step op).connection.sendUnacknowledged = world.connection.sendNext := by
      rw [TcpWorld.step_connection, heq]
      rfl
    unfold TcpWorld.AdvancesOnAck TcpWorld.SendsWhenAcknowledged
    rw [huna]
    constructor
    · intro h _
      by_contra hne
      obtain ⟨segment, hop, -⟩ := h (Ne.symm hne)
      exact hseg ⟨segment, hop⟩
    · intro h hne
      exact absurd (h hsends).symm hne
  · obtain ⟨huna, -⟩ :=
      TcpOp.effect_of_not_sends hsends (fun segment heq => hseg ⟨segment, heq⟩)
    exact iff_of_true (fun hne => absurd huna hne) (fun h => absurd h hsends)

/-! ### Runs -/

/-- What carries the induction over a run. -/
structure TcpWorld.SendsInOrder (world : TcpWorld) : Prop where
  bounded : world.connection.SlotsBounded
  sendInv : SendInv world.connection
  outstanding : world.Outstanding

/-- The invariants of the send side, taken together, are kept by every call of such a user. -/
theorem TcpWorld.SendsInOrder.step {world : TcpWorld} {op : TcpOp} (h : world.SendsInOrder)
    (hop : world.SendsWhenAcknowledged op) : (world.step op).SendsInOrder where
  bounded := op.slotsBounded h.bounded
  sendInv := op.sendInv h.bounded h.sendInv
  outstanding := h.outstanding.step h.bounded h.sendInv hop

/-- Nothing is outstanding in a new connection. -/
theorem TcpWorld.sendsInOrder_init (localPort remotePort : BitVec 16)
    (initialSequence : BitVec 32) :
    (TcpWorld.init localPort remotePort initialSequence).SendsInOrder where
  bounded := init_slotsBounded _ _ _
  sendInv := sendInv_init _ _ _
  outstanding := by
    intro x
    refine iff_of_false List.not_mem_nil ?_
    show ¬InRange initialSequence (initialSequence - initialSequence).toNat x
    rw [SerialNumber.toNat_sub_eq_zero.2 rfl]
    exact SerialNumber.not_inRange_zero _ _

/-- **What is sent is retained exactly when nothing is sent over it.**  For every run:
all its states retain what is outstanding if and only if each accepted builder
call was made with everything acknowledged, and `send_unacknowledged` moves on
accepted acknowledgments only under the same condition. -/
theorem retained_iff (localPort remotePort : BitVec 16) (initialSequence : BitVec 32)
    (ops : List TcpOp) :
    let world := TcpWorld.init localPort remotePort initialSequence
    (Always TcpWorld.step TcpWorld.Retained world ops ↔
        Along TcpWorld.step TcpWorld.SendsWhenAcknowledged world ops) ∧
      (Along TcpWorld.step TcpWorld.AdvancesOnAck world ops ↔
        Along TcpWorld.step TcpWorld.SendsWhenAcknowledged world ops) := by
  intro world
  have hinit : world.SendsInOrder := TcpWorld.sendsInOrder_init _ _ _
  constructor
  · rw [always_iff, and_iff_right (hinit.outstanding.retained hinit.sendInv)]
    refine along_congr (fun w op h => ?_) (fun w op h hop => h.step hop) ops hinit
    constructor
    · intro hretained hsends
      by_contra hne
      exact TcpWorld.not_retained_of_sends h.outstanding h.sendInv hsends hne hretained
    · intro hop
      have hnext := h.step hop
      exact hnext.outstanding.retained hnext.sendInv
  · exact along_congr (fun w op h => TcpWorld.advancesOnAck_iff h.bounded op)
      (fun w op h hop => h.step hop) ops hinit

end Netstack
