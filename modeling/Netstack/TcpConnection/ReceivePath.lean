/-
# What one call does

`tcp_connection_on_segment` decided once.  `OnSegment` lists its outcomes by the
branch that returns; `onSegment_spec` says that every call has one of them, and
everything proved about calls goes through it.

In the outcomes that reach the payload, what happens to the connection between
ACK processing and the closing checks is a `ReceivePath`: a sequence of
`ReceiveStep`s, which move bytes, and of `FinStep`s, each of which is one FIN of
the peer consumed.  The path carries the number of its `FinStep`s, so that an
invariant can be proved step by step together with that count.
-/

import Netstack.TcpConnection.Promotion
import Netstack.TcpConnection.Run

namespace Netstack

open Relation (ReflTransGen)
open SerialNumber (dist InRange)

/-! ### Where a segment lies -/

/-- All bytes of the segment lie before `x`. -/
def TcpSegment.IsOld (segment : TcpSegment) (x : BitVec 32) : Prop :=
  segment.payload = [] ∨ seqLe segment.payloadEnd x = true

/-- The segment begins after a gap. -/
def TcpSegment.IsFuture (segment : TcpSegment) (x : BitVec 32) : Prop :=
  segment.payload ≠ [] ∧ seqLe segment.payloadEnd x = false ∧ seqGt segment.sequenceNumber x = true

/-- The segment holds the byte with sequence number `x`. -/
def TcpSegment.Holds (segment : TcpSegment) (x : BitVec 32) : Prop :=
  InRange segment.sequenceNumber segment.payload.length x

instance (segment : TcpSegment) (x : BitVec 32) : Decidable (segment.IsOld x) :=
  inferInstanceAs (Decidable (_ ∨ _))

instance (segment : TcpSegment) (x : BitVec 32) : Decidable (segment.IsFuture x) :=
  inferInstanceAs (Decidable (_ ∧ _))

instance (segment : TcpSegment) (x : BitVec 32) : Decidable (segment.Holds x) :=
  inferInstanceAs (Decidable (InRange _ _ _))

/-- The bytes of the segment from sequence number `x` on. -/
def TcpSegment.bytesFrom (segment : TcpSegment) (x : BitVec 32) : List UInt8 :=
  Netstack.bytesFrom segment.sequenceNumber segment.payload x

/-- A segment that holds a position has a payload. -/
theorem TcpSegment.Holds.payload_ne_nil {segment : TcpSegment} {x : BitVec 32}
    (h : segment.Holds x) : segment.payload ≠ [] := by
  intro hnil
  rw [TcpSegment.Holds, SerialNumber.InRange, hnil] at h
  exact absurd h (Nat.not_lt_zero _)

/-- What `process_payload` checks, as a fact about the range of the segment: its two comparisons
leave the segments that hold `receive_next`. -/
theorem TcpSegment.holds_iff {segment : TcpSegment} {x : BitVec 32} :
    segment.Holds x ↔ segment.payload ≠ [] ∧ seqLe segment.payloadEnd x = false ∧
      seqGt segment.sequenceNumber x = false := by
  have hlt := segment.payload_length_lt
  constructor
  · intro h
    have hpos : 1 ≤ segment.payload.length :=
      List.length_pos_iff.2 h.payload_ne_nil
    exact ⟨h.payload_ne_nil, (inRange_iff_seq hpos (by omega)).1 h⟩
  · rintro ⟨hne, h⟩
    exact (inRange_iff_seq (List.length_pos_iff.2 hne) (by omega)).2 h

/-- A segment is old, or lies in the future, or holds `x`. -/
theorem TcpSegment.place (segment : TcpSegment) (x : BitVec 32) :
    segment.IsOld x ∨ segment.IsFuture x ∨ segment.Holds x := by
  rw [TcpSegment.holds_iff, TcpSegment.IsOld, TcpSegment.IsFuture]
  cases seqLe segment.payloadEnd x <;> cases seqGt segment.sequenceNumber x <;>
    by_cases h : segment.payload = [] <;> simp [h]

/-! ### The branches of `process_payload` -/

/-- The connection after the segment was saved in the free slot `i`. -/
def TcpConnection.store (connection : TcpConnection) (i : SlotIndex) (segment : TcpSegment) :
    TcpConnection :=
  { connection with
    reassembly := Function.update connection.reassembly i
      ⟨true, segment.sequenceNumber, segment.payload⟩
    reassemblyCount := connection.reassemblyCount + 1 }

/-- What the slots hold after one was filled. -/
theorem TcpConnection.store_reassembly (connection : TcpConnection) (i : SlotIndex)
    (segment : TcpSegment) (j : SlotIndex) :
    (connection.store i segment).reassembly j =
      if j = i then ⟨true, segment.sequenceNumber, segment.payload⟩
      else connection.reassembly j := Function.update_apply ..

/-- `range_already_buffered` for the bytes of the segment. -/
def TcpConnection.buffers (connection : TcpConnection) (segment : TcpSegment) : Bool :=
  rangeAlreadyBuffered connection segment.sequenceNumber segment.payloadEnd

/-- A duplicate is accepted without a trace, and consumes no FIN. -/
theorem processPayload_of_isOld {connection : TcpConnection} {segment : TcpSegment}
    (h : segment.IsOld connection.receiveNext) :
    processPayload connection segment = (0, connection) ∧ payloadFins connection segment = 0 := by
  unfold processPayload payloadFins
  rcases h with h | h
  · simp [h]
  · constructor <;> split_ifs <;> rfl

/-- A segment behind a gap goes to `buffer_future_payload`, whose `-1` is returned; no FIN is
consumed. -/
theorem processPayload_of_isFuture {connection : TcpConnection} {segment : TcpSegment}
    (h : segment.IsFuture connection.receiveNext) :
    (processPayload connection segment =
      match bufferFuturePayload connection segment.sequenceNumber segment.payload with
      | none => (-1, connection)
      | some connection => (0, connection)) ∧
    payloadFins connection segment = 0 := by
  obtain ⟨hne, hold, hgt⟩ := h
  have hlen : segment.payload.length ≠ 0 := by simpa using hne
  unfold processPayload payloadFins
  simp only [if_neg hlen, hold, hgt, Bool.false_eq_true, if_false, if_true]
  trivial

/-- A segment that holds `receive_next` is delivered and followed by promotion, or
refused because its new bytes do not fit. -/
theorem processPayload_of_holds {connection : TcpConnection} {segment : TcpSegment}
    (h : segment.Holds connection.receiveNext) :
    let fresh := segment.bytesFrom connection.receiveNext
    (processPayload connection segment =
      if connection.HasRoom fresh.length then promoteReassembly (connection.deliver fresh)
      else (-1, connection)) ∧
    payloadFins connection segment =
      if connection.HasRoom fresh.length then promoteFins (connection.deliver fresh) else 0 := by
  obtain ⟨hne, hold, hgt⟩ := TcpSegment.holds_iff.1 h
  have hlen : segment.payload.length ≠ 0 := by simpa using hne
  have hadd := length_bytesFrom h
  have hnil : segment.bytesFrom connection.receiveNext ≠ [] := bytesFrom_ne_nil h
  rw [← TcpSegment.bytesFrom] at hadd
  have hover : ¬(connection.receiveNext - segment.sequenceNumber).toNat >
      segment.payload.length := by omega
  have hnew : segment.payload.length - (connection.receiveNext - segment.sequenceNumber).toNat =
      (segment.bytesFrom connection.receiveNext).length := by omega
  unfold processPayload payloadFins
  simp only [if_neg hlen, hold, hgt, Bool.false_eq_true, if_false, if_neg hover]
  rw [← Netstack.bytesFrom, ← TcpSegment.bytesFrom, readyAppend_of_ne_nil hnil, hnew]
  constructor <;> split_ifs <;> rfl

/-- `buffer_future_payload` drops what a slot already holds, and otherwise needs a
short payload and a free slot. -/
theorem bufferFuturePayload_cases (connection : TcpConnection) {segment : TcpSegment}
    (hne : segment.payload ≠ []) :
    (bufferFuturePayload connection segment.sequenceNumber segment.payload = none ∧
        (tcpReassemblySlotDataLen < segment.payload.length ∨
          connection.buffers segment = false ∧ ∀ i, (connection.reassembly i).used = true)) ∨
      (bufferFuturePayload connection segment.sequenceNumber segment.payload = some connection ∧
        segment.payload.length ≤ tcpReassemblySlotDataLen ∧ connection.buffers segment = true) ∨
      ∃ i, bufferFuturePayload connection segment.sequenceNumber segment.payload =
          some (connection.store i segment) ∧
        segment.payload.length ≤ tcpReassemblySlotDataLen ∧
        connection.buffers segment = false ∧ (connection.reassembly i).used = false := by
  have hlen : segment.payload.length ≠ 0 := by simpa using hne
  unfold bufferFuturePayload
  rw [if_neg hlen]
  by_cases hlong : segment.payload.length > tcpReassemblySlotDataLen
  · exact Or.inl ⟨if_pos hlong, Or.inl hlong⟩
  rw [if_neg hlong, ← TcpSegment.payloadEnd, ← TcpConnection.buffers]
  cases hbuf : connection.buffers segment with
  | true => exact Or.inr (Or.inl ⟨rfl, by omega, rfl⟩)
  | false =>
      cases hfree : findFreeReassemblySlot connection with
      | none =>
          refine Or.inl ⟨rfl, Or.inr ⟨rfl, fun i => ?_⟩⟩
          have := List.find?_eq_none.1 hfree i (List.mem_finRange i)
          simpa using this
      | some i =>
          have := List.find?_some hfree
          exact Or.inr (Or.inr ⟨i, rfl, by omega, rfl, by simpa using this⟩)

/-! ### Steps and paths -/

/-- One change of the receive side that consumes no FIN. -/
inductive ReceiveStep (segment : TcpSegment) : TcpConnection → TcpConnection → Prop
  /-- the segment holds `receive_next` and its new bytes are delivered -/
  | accept {connection : TcpConnection} (holds : segment.Holds connection.receiveNext)
      (room : connection.HasRoom (segment.bytesFrom connection.receiveNext).length) :
      ReceiveStep segment connection
        (connection.deliver (segment.bytesFrom connection.receiveNext))
  /-- the segment begins after a gap and is saved -/
  | buffer {connection : TcpConnection} {i : SlotIndex}
      (future : segment.IsFuture connection.receiveNext)
      (short : segment.payload.length ≤ tcpReassemblySlotDataLen)
      (fresh : connection.buffers segment = false)
      (free : (connection.reassembly i).used = false) :
      ReceiveStep segment connection (connection.store i segment)
  /-- one effect of the promotion loop -/
  | promote {connection next : TcpConnection} (step : PromoteStep connection next) :
      ReceiveStep segment connection next
  /-- the FIN of the segment is ahead of a gap and is remembered -/
  | remember {connection : TcpConnection} (fin : segment.hasFlag tcpFlagFin = true)
      (ahead : seqGt segment.payloadEnd connection.receiveNext = true)
      (first : connection.pendingFin = false ∨
        seqLt segment.payloadEnd connection.pendingFinSequence = true) :
      ReceiveStep segment connection
        { connection with pendingFin := true, pendingFinSequence := segment.payloadEnd }

/-- One FIN of the peer consumed. -/
inductive FinStep (segment : TcpSegment) : TcpConnection → TcpConnection → Prop
  /-- in `consume_pending_fin` -/
  | pending {connection : TcpConnection} (due : connection.pendingFinDue = true) :
      FinStep segment connection { connection with
        receiveNext := connection.receiveNext + 1
        pendingFin := false
        state := connection.state.onPeerFin }
  /-- in `process_fin` -/
  | direct {connection : TcpConnection} (due : connection.finDue segment = true) :
      FinStep segment connection { connection with
        receiveNext := connection.receiveNext + 1
        state := connection.state.onPeerFin }

/-- Receive steps and `n` consumed FINs lead from one connection to another. -/
inductive ReceivePath (segment : TcpSegment) (start : TcpConnection) : ℕ → TcpConnection → Prop
  | refl : ReceivePath segment start 0 start
  | step {n : ℕ} {connection next : TcpConnection} (path : ReceivePath segment start n connection)
      (last : ReceiveStep segment connection next) : ReceivePath segment start n next
  | fin {n : ℕ} {connection next : TcpConnection} (path : ReceivePath segment start n connection)
      (last : FinStep segment connection next) : ReceivePath segment start (n + 1) next

/-- Paths are put together, and the FINs that they consume are added. -/
theorem ReceivePath.trans {segment : TcpSegment} {a b c : TcpConnection} {m n : ℕ}
    (h₁ : ReceivePath segment a m b) (h₂ : ReceivePath segment b n c) :
    ReceivePath segment a (m + n) c := by
  induction h₂ with
  | refl => exact h₁
  | step _ last ih => exact ih.step last
  | fin _ last ih => exact ih.fin last

/-- Promotion is a part of the path, and consumes no FIN. -/
theorem ReceivePath.of_promote {segment : TcpSegment} {a b : TcpConnection}
    (h : ReflTransGen PromoteStep a b) : ReceivePath segment a 0 b := by
  induction h with
  | refl => exact .refl
  | tail _ last ih => exact ih.step (.promote last)

/-- **The invariant rule for paths.**  What every step keeps holds at the end. -/
theorem ReceivePath.invariant {segment : TcpSegment} {P : ℕ → TcpConnection → Prop}
    (hstep : ∀ n connection next, P n connection → ReceiveStep segment connection next → P n next)
    (hfin : ∀ n connection next, P n connection → FinStep segment connection next →
      P (n + 1) next)
    {start last : TcpConnection} {n : ℕ} (h : ReceivePath segment start n last)
    (hP : P 0 start) : P n last := by
  induction h with
  | refl => exact hP
  | step _ hlast ih => exact hstep _ _ _ ih hlast
  | fin _ hlast ih => exact hfin _ _ _ ih hlast

/-- `consume_pending_fin` acts exactly when the pending FIN is next. -/
theorem consumePendingFin_eq (connection : TcpConnection) :
    consumePendingFin connection =
      if connection.pendingFinDue = true then { connection with
        receiveNext := connection.receiveNext + 1
        pendingFin := false
        state := connection.state.onPeerFin }
      else connection := by
  unfold consumePendingFin TcpConnection.pendingFinDue
  cases connection.pendingFin <;>
    by_cases h : connection.pendingFinSequence = connection.receiveNext <;> simp [h]

/-- `consume_pending_fin` is a step if the pending FIN is due, and none otherwise. -/
theorem consumePendingFin_path (segment : TcpSegment) (connection : TcpConnection) :
    ReceivePath segment connection connection.pendingFinDue.toNat (consumePendingFin connection) := by
  rw [consumePendingFin_eq]
  cases hdue : connection.pendingFinDue with
  | true => exact ReceivePath.refl.fin (.pending hdue)
  | false => exact .refl

/-- A FIN that is consumed takes one sequence number. -/
theorem consumePendingFin_receiveNext (connection : TcpConnection) :
    (consumePendingFin connection).receiveNext =
      connection.receiveNext + BitVec.ofNat 32 connection.pendingFinDue.toNat := by
  rw [consumePendingFin_eq]
  cases connection.pendingFinDue with
  | true => rfl
  | false => exact (BitVec.add_zero _).symm

theorem consumePendingFin_receiveReady (connection : TcpConnection) :
    (consumePendingFin connection).receiveReady = connection.receiveReady := by
  rw [consumePendingFin_eq]
  split_ifs <;> rfl

theorem consumePendingFin_reassembly (connection : TcpConnection) :
    (consumePendingFin connection).reassembly = connection.reassembly := by
  rw [consumePendingFin_eq]
  split_ifs <;> rfl

/-- After `consume_pending_fin` no pending FIN is next. -/
theorem consumePendingFin_pendingFinDue (connection : TcpConnection) :
    (consumePendingFin connection).pendingFinDue = false := by
  rw [consumePendingFin_eq]
  split_ifs with hdue
  · rfl
  · exact Bool.not_eq_true _ |>.mp hdue

/-- `process_fin` consumes the FIN, or remembers it if it is the first ahead of a gap,
or does nothing. -/
theorem processFin_cases (connection : TcpConnection) (segment : TcpSegment) :
    (connection.finDue segment = true ∧ processFin connection segment = { connection with
        receiveNext := connection.receiveNext + 1
        state := connection.state.onPeerFin }) ∨
      (connection.finDue segment = false ∧ segment.hasFlag tcpFlagFin = true ∧
        seqGt segment.payloadEnd connection.receiveNext = true ∧
        (connection.pendingFin = false ∨
          seqLt segment.payloadEnd connection.pendingFinSequence = true) ∧
        processFin connection segment =
          { connection with pendingFin := true, pendingFinSequence := segment.payloadEnd }) ∨
      (connection.finDue segment = false ∧ processFin connection segment = connection ∧
        (segment.hasFlag tcpFlagFin = true → seqGt segment.payloadEnd connection.receiveNext = true →
          connection.pendingFin = true ∧
            seqLt segment.payloadEnd connection.pendingFinSequence = false)) := by
  unfold processFin TcpConnection.finDue
  cases hflag : segment.hasFlag tcpFlagFin with
  | false => simp
  | true =>
  by_cases hnext : segment.payloadEnd = connection.receiveNext
  · simp [hnext]
  rw [Bool.not_true, if_neg Bool.false_ne_true, if_neg hnext, beq_false_of_ne hnext, Bool.and_false]
  cases hgt : seqGt segment.payloadEnd connection.receiveNext with
  | false => simp
  | true =>
      cases hpending : connection.pendingFin <;>
        cases hlt : seqLt segment.payloadEnd connection.pendingFinSequence <;> simp

/-- `process_fin` consumes the FIN, remembers it, or does nothing. -/
theorem processFin_path (segment : TcpSegment) (connection : TcpConnection) :
    ReceivePath segment connection (connection.finDue segment).toNat
      (processFin connection segment) := by
  rcases processFin_cases connection segment with
    ⟨hdue, heq⟩ | ⟨hdue, hflag, hgt, hfirst, heq⟩ | ⟨hdue, heq, -⟩ <;> rw [hdue, heq]
  · exact ReceivePath.refl.fin (.direct hdue)
  · exact ReceivePath.refl.step (.remember hflag hgt hfirst)
  · exact .refl

/-- The FIN of a segment takes one sequence number if it is due, and none if it is remembered. -/
theorem processFin_receiveNext (connection : TcpConnection) (segment : TcpSegment) :
    (processFin connection segment).receiveNext =
      connection.receiveNext + BitVec.ofNat 32 (connection.finDue segment).toNat := by
  rcases processFin_cases connection segment with
    ⟨hdue, heq⟩ | ⟨hdue, -, -, -, heq⟩ | ⟨hdue, heq, -⟩ <;> rw [hdue, heq]
  · rfl
  · exact (BitVec.add_zero _).symm
  · exact (BitVec.add_zero _).symm

theorem processFin_receiveReady (connection : TcpConnection) (segment : TcpSegment) :
    (processFin connection segment).receiveReady = connection.receiveReady := by
  rcases processFin_cases connection segment with
    ⟨-, heq⟩ | ⟨-, -, -, -, heq⟩ | ⟨-, heq, -⟩ <;> rw [heq]

theorem processFin_reassembly (connection : TcpConnection) (segment : TcpSegment) :
    (processFin connection segment).reassembly = connection.reassembly := by
  rcases processFin_cases connection segment with
    ⟨-, heq⟩ | ⟨-, -, -, -, heq⟩ | ⟨-, heq, -⟩ <;> rw [heq]

/-- A FIN that is remembered lies ahead, so it is not next. -/
theorem processFin_pendingFinDue {connection : TcpConnection} {segment : TcpSegment}
    (hdue : connection.finDue segment = false) (hpending : connection.pendingFinDue = false) :
    (processFin connection segment).pendingFinDue = false := by
  rcases processFin_cases connection segment with
    ⟨htrue, -⟩ | ⟨-, -, hgt, -, heq⟩ | ⟨-, heq, -⟩
  · exact absurd (hdue.symm.trans htrue) Bool.false_ne_true
  · rw [heq, TcpConnection.pendingFinDue, Bool.true_and, beq_eq_false_iff_ne]
    intro (hnext : segment.payloadEnd = connection.receiveNext)
    rw [hnext, seqGt_iff, SerialNumber.dist_self] at hgt
    exact absurd hgt (lt_irrefl 0)
  · rw [heq]
    exact hpending

/-- A step fills a slot with a payload that is not empty and that the source has checked against
`TCP_REASSEMBLY_SLOT_DATA_LEN`, and otherwise only empties slots. -/
theorem ReceiveStep.slotsBounded {segment : TcpSegment} {connection next : TcpConnection}
    (h : ReceiveStep segment connection next) (hb : connection.SlotsBounded) :
    next.SlotsBounded := by
  cases h with
  | accept => exact hb
  | @buffer i future short fresh free =>
      intro j hj
      rw [TcpConnection.store_reassembly] at hj ⊢
      split_ifs at hj ⊢
      · exact ⟨List.length_pos_iff.2 future.1, short⟩
      · exact hb j hj
  | promote step => exact step.slotsBounded hb
  | remember => exact hb

theorem FinStep.slotsBounded {segment : TcpSegment} {connection next : TcpConnection}
    (h : FinStep segment connection next) (hb : connection.SlotsBounded) : next.SlotsBounded := by
  cases h <;> exact hb

theorem ReceivePath.slotsBounded {segment : TcpSegment} {start last : TcpConnection} {n : ℕ}
    (h : ReceivePath segment start n last) (hb : start.SlotsBounded) : last.SlotsBounded :=
  h.invariant (P := fun _ c => c.SlotsBounded) (fun _ _ _ hP hs => hs.slotsBounded hP)
    (fun _ _ _ hP hs => hs.slotsBounded hP) hb

/-- **`promote_reassembly`.**  It fails on a blocked connection, or settles the
slots and then takes the pending FIN if it is next. -/
theorem promoteReassembly_cases {connection : TcpConnection} (hb : connection.SlotsBounded) :
    (∃ last, promoteReassembly connection = (-1, last) ∧ promoteFins connection = 0 ∧
        ReflTransGen PromoteStep connection last ∧ last.Blocked) ∨
      (∃ last, promoteReassembly connection = (0, consumePendingFin last) ∧
        promoteFins connection = last.pendingFinDue.toNat ∧
        ReflTransGen PromoteStep connection last ∧ last.Settled) := by
  unfold promoteReassembly promoteFins
  rcases promoteLoop_cases hb with ⟨last, heq, h⟩ | ⟨last, heq, h⟩
  · exact Or.inl ⟨last, by rw [heq], by rw [heq], h⟩
  · exact Or.inr ⟨last, by rw [heq], by rw [heq], h⟩

/-! ### The outcomes of `process_payload` -/

/-- The outcomes of `process_payload`: its result, the FINs it consumed, and the
connection it leaves. -/
inductive Payload (segment : TcpSegment) (connection : TcpConnection) :
    ℤ → ℕ → TcpConnection → Prop
  /-- nothing new -/
  | old (place : segment.IsOld connection.receiveNext) : Payload segment connection 0 0 connection
  /-- beyond a gap, and no slot can take it -/
  | full (place : segment.IsFuture connection.receiveNext)
      (why : tcpReassemblySlotDataLen < segment.payload.length ∨
        connection.buffers segment = false ∧ ∀ i, (connection.reassembly i).used = true) :
      Payload segment connection (-1) 0 connection
  /-- beyond a gap, and a slot holds all of it -/
  | covered (place : segment.IsFuture connection.receiveNext)
      (short : segment.payload.length ≤ tcpReassemblySlotDataLen)
      (why : connection.buffers segment = true) : Payload segment connection 0 0 connection
  /-- beyond a gap, and saved -/
  | stored {i : SlotIndex} (place : segment.IsFuture connection.receiveNext)
      (short : segment.payload.length ≤ tcpReassemblySlotDataLen)
      (fresh : connection.buffers segment = false)
      (free : (connection.reassembly i).used = false) :
      Payload segment connection 0 0 (connection.store i segment)
  /-- next in order, and its new bytes do not fit -/
  | overflow (place : segment.Holds connection.receiveNext)
      (noRoom : ¬connection.HasRoom (segment.bytesFrom connection.receiveNext).length) :
      Payload segment connection (-1) 0 connection
  /-- next in order and delivered, but promotion ran out of room -/
  | blocked {last : TcpConnection} (place : segment.Holds connection.receiveNext)
      (room : connection.HasRoom (segment.bytesFrom connection.receiveNext).length)
      (steps : ReflTransGen PromoteStep
        (connection.deliver (segment.bytesFrom connection.receiveNext)) last)
      (blocked : last.Blocked) : Payload segment connection (-1) 0 last
  /-- next in order, delivered and promoted -/
  | promoted {last : TcpConnection} (place : segment.Holds connection.receiveNext)
      (room : connection.HasRoom (segment.bytesFrom connection.receiveNext).length)
      (steps : ReflTransGen PromoteStep
        (connection.deliver (segment.bytesFrom connection.receiveNext)) last)
      (settled : last.Settled) :
      Payload segment connection 0 last.pendingFinDue.toNat (consumePendingFin last)

/-- **`process_payload`** has one of these outcomes. -/
theorem processPayload_spec (segment : TcpSegment) {connection : TcpConnection}
    (hb : connection.SlotsBounded) :
    Payload segment connection (processPayload connection segment).1
      (payloadFins connection segment) (processPayload connection segment).2 := by
  rcases segment.place connection.receiveNext with h | h | h
  · obtain ⟨heq, hfins⟩ := processPayload_of_isOld h
    rw [heq, hfins]
    exact .old h
  · obtain ⟨heq, hfins⟩ := processPayload_of_isFuture h
    rw [heq, hfins]
    rcases bufferFuturePayload_cases connection h.1 with
      ⟨hbuf, hwhy⟩ | ⟨hbuf, hshort, hwhy⟩ | ⟨i, hbuf, hshort, hfresh, hfree⟩
    · rw [hbuf]
      exact .full h hwhy
    · rw [hbuf]
      exact .covered h hshort hwhy
    · rw [hbuf]
      exact .stored h hshort hfresh hfree
  · obtain ⟨heq, hfins⟩ := processPayload_of_holds h
    rw [heq, hfins]
    split_ifs with hroom
    · have hbounded : (connection.deliver
          (segment.bytesFrom connection.receiveNext)).SlotsBounded := hb
      rcases promoteReassembly_cases hbounded with
        ⟨last, hres, hn, hsteps, hblocked⟩ | ⟨last, hres, hn, hsteps, hsettled⟩
      · rw [hres, hn]
        exact .blocked h hroom hsteps hblocked
      · rw [hres, hn]
        exact .promoted h hroom hsteps hsettled
    · exact .overflow h hroom

/-- Each outcome of `process_payload` is a path, those that are refused included: these stop
where the source returns. -/
theorem Payload.path {segment : TcpSegment} {connection last : TcpConnection} {result : ℤ} {n : ℕ}
    (h : Payload segment connection result n last) : ReceivePath segment connection n last := by
  cases h with
  | old | full | covered | overflow => exact .refl
  | stored place short fresh free => exact ReceivePath.refl.step (.buffer place short fresh free)
  | blocked place room steps =>
      have hfirst := ReceivePath.refl.step (.accept place room)
      exact hfirst.trans (.of_promote steps)
  | promoted place room steps =>
      have hfirst := (ReceivePath.refl.step (.accept place room)).trans (.of_promote steps)
      have hall := hfirst.trans (consumePendingFin_path segment _)
      simpa only [Nat.zero_add] using hall

/-- A refused payload consumed no FIN. -/
theorem Payload.fins_of_refused {segment : TcpSegment} {connection last : TcpConnection} {n : ℕ}
    (h : Payload segment connection (-1) n last) : n = 0 := by
  cases h <;> rfl

/-! ### The outcomes of a call -/

/-- The connection that an RST leaves. -/
def TcpConnection.aborted (connection : TcpConnection) : TcpConnection :=
  clearReassembly { connection with state := .reset, hasRetransmitSegment := false }

/-- The connection that an acceptable SYN-ACK leaves. -/
def TcpConnection.opened (connection : TcpConnection) (segment : TcpSegment) : TcpConnection :=
  { connection with
    receiveNext := segment.sequenceNumber + 1
    state := .established
    hasRetransmitSegment := false
    retransmitCount := 0
    retransmitElapsedMs := 0
    retransmitTimeoutMs := tcpDefaultRtoMs }

/-- The segment has both flags of a SYN-ACK. -/
def TcpSegment.isSynAck (segment : TcpSegment) : Bool :=
  segment.flags &&& (tcpFlagSyn ||| tcpFlagAck) == tcpFlagSyn ||| tcpFlagAck

/-- The outcomes of `tcp_connection_on_segment`: its result, the FINs it consumed,
and the connection it leaves. -/
inductive OnSegment (segment : TcpSegment) (connection : TcpConnection) :
    ℤ → ℕ → TcpConnection → Prop
  /-- the ports do not match -/
  | misaddressed (ports : connection.addressedBy segment = false) :
      OnSegment segment connection (-1) 0 connection
  /-- an RST -/
  | aborted (ports : connection.addressedBy segment = true)
      (rst : segment.hasFlag tcpFlagRst = true) :
      OnSegment segment connection 0 0 connection.aborted
  /-- no SYN-ACK in SYN-SENT -/
  | unanswered (ports : connection.addressedBy segment = true)
      (rst : segment.hasFlag tcpFlagRst = false) (state : connection.state = .synSent)
      (synAck : segment.isSynAck = false) :
      OnSegment segment connection 0 0 (connection.afterAck segment)
  /-- a SYN-ACK for another SYN -/
  | mismatched (ports : connection.addressedBy segment = true)
      (rst : segment.hasFlag tcpFlagRst = false) (state : connection.state = .synSent)
      (synAck : segment.isSynAck = true)
      (number : segment.acknowledgmentNumber ≠ connection.sendNext) :
      OnSegment segment connection (-1) 0 (connection.afterAck segment)
  /-- the handshake is completed -/
  | opened (ports : connection.addressedBy segment = true)
      (rst : segment.hasFlag tcpFlagRst = false) (state : connection.state = .synSent)
      (synAck : segment.isSynAck = true)
      (number : segment.acknowledgmentNumber = connection.sendNext) :
      OnSegment segment connection 1 0 ((connection.afterAck segment).opened segment)
  /-- a state that takes no payload -/
  | ignored (ports : connection.addressedBy segment = true)
      (rst : segment.hasFlag tcpFlagRst = false) (state : connection.state ≠ .synSent)
      (receives : connection.state.receives = false) :
      OnSegment segment connection 0 0 (connection.afterAck segment)
  /-- the payload is refused -/
  | refused {n : ℕ} {last : TcpConnection} (ports : connection.addressedBy segment = true)
      (rst : segment.hasFlag tcpFlagRst = false) (receives : connection.state.receives = true)
      (payload : Payload segment (connection.afterAck segment) (-1) n last) :
      OnSegment segment connection (-2) n last
  /-- payload, FIN and closing checks are all processed -/
  | received {n : ℕ} {mid : TcpConnection} (ports : connection.addressedBy segment = true)
      (rst : segment.hasFlag tcpFlagRst = false) (receives : connection.state.receives = true)
      (payload : Payload segment (connection.afterAck segment) 0 n mid) :
      OnSegment segment connection 0
        (n + (mid.finDue segment).toNat + (processFin mid segment).pendingFinDue.toNat)
        (finishClose (consumePendingFin (processFin mid segment)))

section AfterAck

variable (connection : TcpConnection) (segment : TcpSegment)

/-- ACK processing moves `send_unacknowledged` and the timers only. -/
theorem TcpConnection.afterAck_eq :
    connection.afterAck segment =
      if connection.acceptsAck segment = true then
        if segment.acknowledgmentNumber = connection.sendNext then { connection with
          sendUnacknowledged := segment.acknowledgmentNumber
          retransmitElapsedMs := 0
          retransmitCount := 0
          hasRetransmitSegment := false
          retransmitTimeoutMs := tcpDefaultRtoMs
          remoteWindow := segment.windowSize }
        else { connection with
          sendUnacknowledged := segment.acknowledgmentNumber
          retransmitElapsedMs := 0
          retransmitCount := 0
          remoteWindow := segment.windowSize }
      else { connection with remoteWindow := segment.windowSize } := by
  unfold TcpConnection.afterAck processAck
  cases connection.acceptsAck segment with
  | false => rfl
  | true =>
      by_cases h : segment.acknowledgmentNumber = connection.sendNext
      · simp [h]
      · simp [h]

@[simp] theorem TcpConnection.afterAck_state :
    (connection.afterAck segment).state = connection.state := by
  rw [TcpConnection.afterAck_eq]
  split_ifs <;> rfl

@[simp] theorem TcpConnection.afterAck_sendNext :
    (connection.afterAck segment).sendNext = connection.sendNext := by
  rw [TcpConnection.afterAck_eq]
  split_ifs <;> rfl

@[simp] theorem TcpConnection.afterAck_lastSegment :
    (connection.afterAck segment).lastSegment = connection.lastSegment := by
  rw [TcpConnection.afterAck_eq]
  split_ifs <;> rfl

@[simp] theorem TcpConnection.afterAck_receiveNext :
    (connection.afterAck segment).receiveNext = connection.receiveNext := by
  rw [TcpConnection.afterAck_eq]
  split_ifs <;> rfl

@[simp] theorem TcpConnection.afterAck_reassembly :
    (connection.afterAck segment).reassembly = connection.reassembly := by
  rw [TcpConnection.afterAck_eq]
  split_ifs <;> rfl

@[simp] theorem TcpConnection.afterAck_receiveReady :
    (connection.afterAck segment).receiveReady = connection.receiveReady := by
  rw [TcpConnection.afterAck_eq]
  split_ifs <;> rfl

@[simp] theorem TcpConnection.afterAck_pendingFin :
    (connection.afterAck segment).pendingFin = connection.pendingFin := by
  rw [TcpConnection.afterAck_eq]
  split_ifs <;> rfl

@[simp] theorem TcpConnection.afterAck_pendingFinSequence :
    (connection.afterAck segment).pendingFinSequence = connection.pendingFinSequence := by
  rw [TcpConnection.afterAck_eq]
  split_ifs <;> rfl

end AfterAck

/-- ACK processing leaves the slots alone. -/
theorem TcpConnection.SlotsBounded.afterAck {connection : TcpConnection}
    (hb : connection.SlotsBounded) (segment : TcpSegment) :
    (connection.afterAck segment).SlotsBounded := by
  intro i
  rw [TcpConnection.afterAck_reassembly]
  exact hb i

theorem TcpConnectionState.ne_synSent_of_receives {state : TcpConnectionState}
    (h : state.receives = true) : state ≠ .synSent := by
  rintro rfl
  exact absurd h Bool.false_ne_true

/-- The result of `process_payload` is `0` or `-1`. -/
theorem Payload.result {segment : TcpSegment} {connection last : TcpConnection} {result : ℤ}
    {n : ℕ} (h : Payload segment connection result n last) : result = 0 ∨ result = -1 := by
  cases h <;> simp

/-- **Every call** of `tcp_connection_on_segment` has one of the outcomes. -/
theorem onSegment_spec (segment : TcpSegment) {connection : TcpConnection}
    (hb : connection.SlotsBounded) :
    OnSegment segment connection (tcpConnectionOnSegment connection segment).1
      (onSegmentFins connection segment) (tcpConnectionOnSegment connection segment).2 := by
  unfold tcpConnectionOnSegment onSegmentFins
  cases hports : connection.addressedBy segment with
  | false => exact .misaddressed hports
  | true =>
  cases hrst : segment.hasFlag tcpFlagRst with
  | true => exact .aborted hports hrst
  | false =>
  simp only [Bool.not_true, Bool.false_eq_true, if_false, TcpConnection.afterAck_state]
  by_cases hstate : connection.state = .synSent
  · simp only [if_pos hstate, processHandshake]
    by_cases hflags : segment.flags &&& (tcpFlagSyn ||| tcpFlagAck) = tcpFlagSyn ||| tcpFlagAck
    · have hsyn : segment.isSynAck = true := beq_iff_eq.2 hflags
      rw [if_pos hflags]
      by_cases hnumber : segment.acknowledgmentNumber = connection.sendNext
      · rw [if_neg (by rw [TcpConnection.afterAck_sendNext]; exact not_not_intro hnumber)]
        exact .opened hports hrst hstate hsyn hnumber
      · rw [if_pos (by rw [TcpConnection.afterAck_sendNext]; exact hnumber)]
        exact .mismatched hports hrst hstate hsyn hnumber
    · rw [if_neg hflags]
      exact .unanswered hports hrst hstate (beq_eq_false_iff_ne.2 hflags)
  · simp only [if_neg hstate]
    cases hrec : connection.state.receives with
    | false => exact .ignored hports hrst hstate hrec
    | true =>
        have hspec := processPayload_spec segment (hb.afterAck segment)
        simp only [Bool.not_true, Bool.false_eq_true, if_false]
        rcases hspec.result with hres | hres
        · simp only [hres, ne_eq, not_true_eq_false, if_false]
          exact .received hports hrst hrec (hres ▸ hspec)
        · simp only [hres, ne_eq, neg_eq_zero, one_ne_zero, not_false_eq_true, if_true]
          exact .refused hports hrst hrec (hres ▸ hspec)

end Netstack
