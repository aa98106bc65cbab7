/-
# How far a delivery gets

Which slots a promotion empties, and in which order, depends on where they lie in
the array.  How far `receive_next` moves does not: from the end of the delivered
segment it follows the slots that hold the position it has come to, and
`TcpConnection.Reaches` is that chain, read off the connection before the call.

`Promoted.reaches` is soundness: the loop stays on the chain.  `Promoted.settled` is
completeness: a loop that settles has passed everything on it, and
`Promoted.blocked` that a loop without room has not.  Together they decide from
the state before a call whether its payload is refused: `Payload.refused_iff`.
-/

import Netstack.TcpConnection.ReceivePath

namespace Netstack

open Relation (ReflTransGen)
open SerialNumber (dist InRange)

/-- The positions that delivery can come to from `x` on: `x`, and the end of every
used slot that holds one of them. -/
inductive TcpConnection.Reaches (connection : TcpConnection) (x : BitVec 32) : BitVec 32 → Prop
  | refl : connection.Reaches x x
  | slot {y : BitVec 32} {i : SlotIndex} (reached : connection.Reaches x y)
      (holds : (connection.reassembly i).Holds y) :
      connection.Reaches x (connection.reassembly i).slotEnd

/-- The chain depends on the slots only. -/
theorem TcpConnection.Reaches.congr {connection next : TcpConnection}
    (heq : next.reassembly = connection.reassembly) {x y : BitVec 32}
    (h : connection.Reaches x y) : next.Reaches x y := by
  induction h with
  | refl => exact .refl
  | @slot y i _ holds ih =>
      rw [← heq] at holds ⊢
      exact .slot ih holds

@[simp] theorem TcpConnection.reaches_deliver {connection : TcpConnection} {data : List UInt8}
    {x y : BitVec 32} : (connection.deliver data).Reaches x y ↔ connection.Reaches x y :=
  ⟨fun h => @TcpConnection.Reaches.congr (connection.deliver data) connection rfl x y h,
    fun h => @TcpConnection.Reaches.congr connection (connection.deliver data) rfl x y h⟩

/-- What promotion has done to `start` when `d` bytes are delivered. -/
structure Promoted (start last : TcpConnection) (d : ℕ) : Prop where
  receiveNext : last.receiveNext = start.receiveNext + BitVec.ofNat 32 d
  readyLength : last.receiveReady.length = start.receiveReady.length + d
  room : last.receiveReady.length ≤ tcpReceiveReadyCapacity
  reaches : start.Reaches start.receiveNext last.receiveNext
  pending : last.pendingFin = start.pendingFin ∧
    last.pendingFinSequence = start.pendingFinSequence
  /-- a slot is as it was, or it is free and its end was passed -/
  slots : ∀ i, last.reassembly i = start.reassembly i ∨ (last.reassembly i).used = false ∧
    ∃ k ≤ d, seqLe (start.reassembly i).slotEnd
      (start.receiveNext + BitVec.ofNat 32 k) = true

/-- The end of a slot is as far from the position it holds as its bytes from there on
are long. -/
theorem TcpReassemblySlot.slotEnd_eq {slot : TcpReassemblySlot} {x : BitVec 32}
    (h : slot.Holds x) : slot.slotEnd = x + BitVec.ofNat 32 (slot.bytesFrom x).length := by
  have hadd := length_bytesFrom h.2
  rw [← TcpReassemblySlot.bytesFrom] at hadd
  rw [TcpReassemblySlot.slotEnd, ← hadd, Nat.add_comm, ← SerialNumber.add_ofNat_add,
    ← SerialNumber.eq_add_toNat_sub]

theorem removeReassemblySlot_receiveNext (connection : TcpConnection) (i : SlotIndex) :
    (removeReassemblySlot connection i).receiveNext = connection.receiveNext := by
  unfold removeReassemblySlot
  split_ifs <;> rfl

theorem removeReassemblySlot_receiveReady (connection : TcpConnection) (i : SlotIndex) :
    (removeReassemblySlot connection i).receiveReady = connection.receiveReady := by
  unfold removeReassemblySlot
  split_ifs <;> rfl

/-- Emptying a slot leaves the pending FIN. -/
theorem removeReassemblySlot_pending (connection : TcpConnection) (i : SlotIndex) :
    (removeReassemblySlot connection i).pendingFin = connection.pendingFin ∧
      (removeReassemblySlot connection i).pendingFinSequence = connection.pendingFinSequence := by
  unfold removeReassemblySlot
  split_ifs <;> exact ⟨rfl, rfl⟩

/-- What the slots hold after one was emptied. -/
theorem removeReassemblySlot_reassembly {connection : TcpConnection} {i : SlotIndex}
    (h : (connection.reassembly i).used = true) (j : SlotIndex) :
    (removeReassemblySlot connection i).reassembly j =
      if j = i then TcpReassemblySlot.zero else connection.reassembly j := by
  rw [removeReassemblySlot_of_used h]
  exact Function.update_apply ..

/-- Nothing has been promoted before the first step. -/
theorem Promoted.refl {start : TcpConnection}
    (hroom : start.receiveReady.length ≤ tcpReceiveReadyCapacity) : Promoted start start 0 where
  receiveNext := (BitVec.add_zero _).symm
  readyLength := rfl
  room := hroom
  reaches := .refl
  pending := ⟨rfl, rfl⟩
  slots := fun _ => Or.inl rfl

/-- A slot that is in use after promotion is the one that was there before it. -/
theorem Promoted.slot_of_used {start last : TcpConnection} {d : ℕ} (h : Promoted start last d)
    {i : SlotIndex} (hused : (last.reassembly i).used = true) :
    last.reassembly i = start.reassembly i := by
  rcases h.slots i with heq | ⟨hfree, -⟩
  · exact heq
  · exact absurd (hfree.symm.trans hused) Bool.false_ne_true

/-- **One more step of the promotion.** It discards a slot that is old by now, so that nothing
moves, or delivers the bytes of a slot from `receive_next` on, and `receive_next` moves by as
many, to the end of the slot. Of every slot that was emptied the invariant keeps that its end was
passed: a discarded one ended before `receive_next`, and a delivered one ends there. -/
theorem Promoted.tail {start connection next : TcpConnection} {d : ℕ}
    (h : Promoted start connection d) (hstep : PromoteStep connection next) :
    ∃ d', Promoted start next d' := by
  cases hstep with
  | @discard i used received =>
      have hpending := removeReassemblySlot_pending connection i
      refine ⟨d, ?_, ?_, ?_, ?_, ⟨hpending.1.trans h.pending.1, hpending.2.trans h.pending.2⟩,
        fun j => ?_⟩
      · rw [removeReassemblySlot_receiveNext, h.receiveNext]
      · rw [removeReassemblySlot_receiveReady, h.readyLength]
      · rw [removeReassemblySlot_receiveReady]
        exact h.room
      · rw [removeReassemblySlot_receiveNext]
        exact h.reaches
      · rw [removeReassemblySlot_reassembly used]
        split_ifs with hji
        · rw [h.slot_of_used used, h.receiveNext] at received
          exact Or.inr ⟨rfl, d, le_rfl, hji ▸ received⟩
        · exact h.slots j
  | @deliver i holds room =>
      have hsame := h.slot_of_used holds.1
      have hused : ((connection.deliver ((connection.reassembly i).bytesFrom
          connection.receiveNext)).reassembly i).used = true := holds.1
      have hend := TcpReassemblySlot.slotEnd_eq holds
      have hpending := removeReassemblySlot_pending
        (connection.deliver ((connection.reassembly i).bytesFrom connection.receiveNext)) i
      refine ⟨d + ((connection.reassembly i).bytesFrom connection.receiveNext).length,
        ?_, ?_, ?_, ?_, ⟨hpending.1.trans h.pending.1, hpending.2.trans h.pending.2⟩, fun j => ?_⟩
      · rw [removeReassemblySlot_receiveNext, ← SerialNumber.add_ofNat_add, ← h.receiveNext]
        rfl
      · rw [removeReassemblySlot_receiveReady, TcpConnection.deliver_receiveReady, List.length_append,
          h.readyLength, Nat.add_assoc]
      · rw [removeReassemblySlot_receiveReady, TcpConnection.deliver_receiveReady, List.length_append]
        exact room
      · rw [removeReassemblySlot_receiveNext, TcpConnection.deliver]
        show start.Reaches _ (connection.receiveNext + _)
        rw [← hend, hsame]
        exact .slot h.reaches (hsame ▸ holds)
      · rw [removeReassemblySlot_reassembly hused]
        split_ifs with hji
        · -- the end of a delivered slot is the new `receive_next`
          refine Or.inr ⟨rfl, _, le_rfl, ?_⟩
          rw [hji, ← hsame, hend, h.receiveNext, SerialNumber.add_ofNat_add, seqLe_iff,
            SerialNumber.dist_self]
        · rcases h.slots j with heq | ⟨hfree, k, hk, hle⟩
          · exact Or.inl heq
          · exact Or.inr ⟨hfree, k, by omega, hle⟩

/-- The run lemma: however many steps were taken, one distance describes them. -/
theorem Promoted.of_steps {start last : TcpConnection}
    (hroom : start.receiveReady.length ≤ tcpReceiveReadyCapacity)
    (h : ReflTransGen PromoteStep start last) : ∃ d, Promoted start last d := by
  induction h with
  | refl => exact ⟨0, .refl hroom⟩
  | tail _ hstep ih =>
      obtain ⟨d, hd⟩ := ih
      exact hd.tail hstep

/-- No more is promoted than the ready buffer holds. -/
theorem Promoted.le_capacity {start last : TcpConnection} {d : ℕ} (h : Promoted start last d) :
    d ≤ 32768 := by
  have hlen := h.readyLength
  have hroom := h.room
  have hmax : tcpReceiveReadyCapacity = 32768 := rfl
  omega

/-- **Completeness.**  When the slots are settled, everything that could be reached is
delivered. -/
theorem Promoted.settled {start last : TcpConnection} {d : ℕ} (h : Promoted start last d)
    (hb : start.SlotsBounded) (hsettled : last.Settled) {y : BitVec 32}
    (hy : start.Reaches start.receiveNext y) :
    ∃ j ≤ d, y = start.receiveNext + BitVec.ofNat 32 j := by
  have hcap := h.le_capacity
  have hmax : tcpReassemblySlotDataLen = 2048 := rfl
  induction hy with
  | refl => exact ⟨0, Nat.zero_le d, (BitVec.add_zero _).symm⟩
  | @slot y i _ holds ih =>
      obtain ⟨j, hj, hy⟩ := ih
      have hlong := (hb i holds.1).2
      have hadd := length_bytesFrom holds.2
      rw [← TcpReassemblySlot.bytesFrom] at hadd
      have hend := TcpReassemblySlot.slotEnd_eq holds
      generalize ((start.reassembly i).bytesFrom y).length = n at hadd hend
      refine ⟨j + n, ?_, by rw [hend, hy, SerialNumber.add_ofNat_add]⟩
      rcases h.slots i with heq | ⟨-, k, hk, hle⟩
      · -- the slot would still be there, although it begins no later than `receive_next`
        exfalso
        have hskip := (hsettled i (by rw [heq]; exact holds.1)).1
        have hnext : last.receiveNext = (start.reassembly i).sequenceNumber +
            BitVec.ofNat 32 ((y - (start.reassembly i).sequenceNumber).toNat + (d - j)) := by
          rw [← SerialNumber.add_ofNat_add, ← SerialNumber.eq_add_toNat_sub, hy,
            SerialNumber.add_ofNat_add, h.receiveNext, Nat.add_sub_cancel' hj]
        have hback := SerialNumber.dist_add_right (a := (start.reassembly i).sequenceNumber)
          (b := (start.reassembly i).sequenceNumber)
          (n := (y - (start.reassembly i).sequenceNumber).toNat + (d - j))
          (by rw [SerialNumber.dist_self]; omega)
        rw [heq, hnext, seqGt_iff, hback, SerialNumber.dist_self] at hskip
        omega
      · -- the slot was passed
        rw [hend, hy, SerialNumber.add_ofNat_add, seqLe_iff,
          SerialNumber.dist_offset (by omega) (by omega)] at hle
        omega

/-- A blocked promotion has something within reach that does not fit. -/
theorem Promoted.blocked {start last : TcpConnection} {d : ℕ} (h : Promoted start last d)
    (hb : start.SlotsBounded) (hblocked : last.Blocked) :
    ∃ j, j ≤ 34816 ∧ start.Reaches start.receiveNext (start.receiveNext + BitVec.ofNat 32 j) ∧
      tcpReceiveReadyCapacity < start.receiveReady.length + j := by
  obtain ⟨i, holds, hroom⟩ := hblocked
  have hsame := h.slot_of_used holds.1
  have hlen := h.readyLength
  have hcap := h.le_capacity
  have hend := TcpReassemblySlot.slotEnd_eq holds
  have hadd := length_bytesFrom holds.2
  rw [← TcpReassemblySlot.bytesFrom] at hadd
  unfold TcpConnection.HasRoom at hroom
  have hlong := (hb i (hsame ▸ holds.1)).2
  have hmax : tcpReassemblySlotDataLen = 2048 := rfl
  rw [← hsame] at hlong
  refine ⟨d + ((last.reassembly i).bytesFrom last.receiveNext).length, by omega, ?_, by omega⟩
  rw [← SerialNumber.add_ofNat_add, ← h.receiveNext, ← hend, hsame]
  exact .slot h.reaches (hsame ▸ holds)

/-! ### Refusals -/

/-- The connection refuses the payload of the segment: it lies beyond a gap and no
slot can take it, or what can be delivered with it does not fit. -/
def TcpConnection.Refuses (connection : TcpConnection) (segment : TcpSegment) : Prop :=
  segment.IsFuture connection.receiveNext ∧
      (tcpReassemblySlotDataLen < segment.payload.length ∨
        connection.buffers segment = false ∧ ∀ i, (connection.reassembly i).used = true) ∨
    segment.Holds connection.receiveNext ∧ ∃ y, connection.Reaches segment.payloadEnd y ∧
      tcpReceiveReadyCapacity <
        connection.receiveReady.length + (y - connection.receiveNext).toNat

/-- A segment without a byte at or behind `receive_next` does not begin behind it. -/
theorem TcpSegment.IsOld.not_isFuture {segment : TcpSegment} {x : BitVec 32}
    (h : segment.IsOld x) : ¬segment.IsFuture x := by
  rintro ⟨hne, hnew, -⟩
  rcases h with hnil | hold
  · exact hne hnil
  · exact absurd (hnew.symm.trans hold) Bool.false_ne_true

/-- A segment that ends before `receive_next` does not hold it. -/
theorem TcpSegment.IsOld.not_holds {segment : TcpSegment} {x : BitVec 32}
    (h : segment.IsOld x) : ¬segment.Holds x := by
  rw [TcpSegment.holds_iff]
  rintro ⟨hne, hnew, -⟩
  rcases h with hnil | hold
  · exact hne hnil
  · exact absurd (hnew.symm.trans hold) Bool.false_ne_true

/-- A segment that begins behind `receive_next` does not hold it. -/
theorem TcpSegment.IsFuture.not_holds {segment : TcpSegment} {x : BitVec 32}
    (h : segment.IsFuture x) : ¬segment.Holds x := by
  rw [TcpSegment.holds_iff]
  rintro ⟨-, -, hgt⟩
  exact absurd (hgt.symm.trans h.2.2) Bool.false_ne_true

/-- The end of a segment is as far from the position it holds as its bytes from there
on are long. -/
theorem TcpSegment.payloadEnd_eq {segment : TcpSegment} {x : BitVec 32} (h : segment.Holds x) :
    segment.payloadEnd = x + BitVec.ofNat 32 (segment.bytesFrom x).length := by
  have hadd := length_bytesFrom h
  rw [← TcpSegment.bytesFrom] at hadd
  rw [TcpSegment.payloadEnd, ← hadd, Nat.add_comm, ← SerialNumber.add_ofNat_add,
    ← SerialNumber.eq_add_toNat_sub]

/-- The segment is next in order, and its new bytes fit. -/
def TcpConnection.Takes (connection : TcpConnection) (segment : TcpSegment) : Prop :=
  segment.Holds connection.receiveNext ∧
    connection.HasRoom (segment.bytesFrom connection.receiveNext).length

instance (connection : TcpConnection) (segment : TcpSegment) :
    Decidable (connection.Takes segment) := inferInstanceAs (Decidable (_ ∧ _))

/-- Delivery moves `receive_next` to the end of the segment. -/
theorem TcpConnection.deliver_receiveNext {connection : TcpConnection} {segment : TcpSegment}
    (h : segment.Holds connection.receiveNext) :
    (connection.deliver (segment.bytesFrom connection.receiveNext)).receiveNext =
      segment.payloadEnd := (TcpSegment.payloadEnd_eq h).symm

/-- What promotion does behind a delivered segment. -/
theorem Promoted.of_deliver {segment : TcpSegment} {connection last : TcpConnection}
    (hroom : connection.HasRoom (segment.bytesFrom connection.receiveNext).length)
    (hsteps : ReflTransGen PromoteStep
      (connection.deliver (segment.bytesFrom connection.receiveNext)) last) :
    ∃ d, Promoted (connection.deliver (segment.bytesFrom connection.receiveNext)) last d := by
  refine Promoted.of_steps ?_ hsteps
  rw [TcpConnection.deliver_receiveReady, List.length_append]
  exact hroom

/-- **`process_payload` delivers, or leaves alone what was delivered.**  Behind a
delivered segment promotion ends blocked or settled. -/
theorem Payload.idle_or_delivered {segment : TcpSegment} {connection mid : TcpConnection}
    {result : ℤ} {n : ℕ} (h : Payload segment connection result n mid) :
    (¬connection.Takes segment ∧ n = 0 ∧ mid.receiveNext = connection.receiveNext ∧
        mid.receiveReady = connection.receiveReady ∧ mid.pendingFin = connection.pendingFin ∧
        mid.pendingFinSequence = connection.pendingFinSequence) ∨
      (connection.Takes segment ∧ ∃ last d,
        Promoted (connection.deliver (segment.bytesFrom connection.receiveNext)) last d ∧
        ((result = -1 ∧ n = 0 ∧ mid = last ∧ last.Blocked) ∨
          (result = 0 ∧ n = last.pendingFinDue.toNat ∧ mid = consumePendingFin last ∧
            last.Settled))) := by
  cases h with
  | old place => exact Or.inl ⟨fun h => place.not_holds h.1, rfl, rfl, rfl, rfl, rfl⟩
  | full place | covered place | stored place =>
      exact Or.inl ⟨fun h => place.not_holds h.1, rfl, rfl, rfl, rfl, rfl⟩
  | overflow place noRoom => exact Or.inl ⟨fun h => noRoom h.2, rfl, rfl, rfl, rfl, rfl⟩
  | blocked place room steps blocked =>
      obtain ⟨d, hd⟩ := Promoted.of_deliver room steps
      exact Or.inr ⟨⟨place, room⟩, _, d, hd, Or.inl ⟨rfl, rfl, rfl, blocked⟩⟩
  | promoted place room steps settled =>
      obtain ⟨d, hd⟩ := Promoted.of_deliver room steps
      exact Or.inr ⟨⟨place, room⟩, _, d, hd, Or.inr ⟨rfl, rfl, rfl, settled⟩⟩

/-- Nothing is reached beyond a position that no slot holds. -/
theorem TcpConnection.Reaches.eq_of_not_holds {connection : TcpConnection} {x y : BitVec 32}
    (h : connection.Reaches x y) (hx : ∀ i, ¬(connection.reassembly i).Holds x) : y = x := by
  induction h with
  | refl => rfl
  | slot _ holds ih => exact absurd (ih ▸ holds) (hx _)

/-- **A refusal is decided by the state before the call.** -/
theorem Payload.refused_iff {segment : TcpSegment} {connection last : TcpConnection} {result : ℤ}
    {n : ℕ} (h : Payload segment connection result n last) (hb : connection.SlotsBounded) :
    result = -1 ↔ connection.Refuses segment := by
  have hlen := segment.payload_length_lt
  cases h with
  | old place =>
      refine iff_of_false (by decide) ?_
      rintro (⟨hfuture, -⟩ | ⟨hholds, -⟩)
      · exact place.not_isFuture hfuture
      · exact place.not_holds hholds
  | full place why => exact iff_of_true rfl (Or.inl ⟨place, why⟩)
  | covered place short why =>
      refine iff_of_false (by decide) ?_
      rintro (⟨-, hlong | ⟨hfresh, -⟩⟩ | ⟨hholds, -⟩)
      · omega
      · exact absurd (hfresh.symm.trans why) Bool.false_ne_true
      · exact place.not_holds hholds
  | @stored i place short fresh free =>
      refine iff_of_false (by decide) ?_
      rintro (⟨-, hlong | ⟨-, hfull⟩⟩ | ⟨hholds, -⟩)
      · omega
      · exact absurd (free.symm.trans (hfull i)) Bool.false_ne_true
      · exact place.not_holds hholds
  | overflow place noRoom =>
      refine iff_of_true rfl (Or.inr ⟨place, segment.payloadEnd, .refl, ?_⟩)
      have hadd := length_bytesFrom place
      rw [← TcpSegment.bytesFrom] at hadd
      have hdist : (segment.payloadEnd - connection.receiveNext).toNat =
          (segment.bytesFrom connection.receiveNext).length := by
        rw [TcpSegment.payloadEnd_eq place]
        bv_omega
      unfold TcpConnection.HasRoom at noRoom
      omega
  | blocked place room steps blocked =>
      refine iff_of_true rfl (Or.inr ⟨place, ?_⟩)
      obtain ⟨d, hd⟩ := Promoted.of_deliver room steps
      obtain ⟨j, hj, hreach, hover⟩ := hd.blocked hb blocked
      rw [TcpConnection.deliver_receiveReady, List.length_append] at hover
      have hadd := length_bytesFrom place
      rw [← TcpSegment.bytesFrom] at hadd
      have hend := TcpSegment.payloadEnd_eq place
      rw [TcpConnection.reaches_deliver] at hreach
      change connection.Reaches (connection.receiveNext + _)
        (connection.receiveNext + _ + _) at hreach
      rw [← hend] at hreach
      refine ⟨_, hreach, ?_⟩
      have hdist : (segment.payloadEnd + BitVec.ofNat 32 j - connection.receiveNext).toNat =
          (segment.bytesFrom connection.receiveNext).length + j := by
        rw [hend]
        bv_omega
      omega
  | promoted place room steps settled =>
      refine iff_of_false (by decide) ?_
      rintro (⟨hfuture, -⟩ | ⟨-, y, hy, hover⟩)
      · exact hfuture.not_holds place
      obtain ⟨d, hd⟩ := Promoted.of_deliver room steps
      have hend := TcpSegment.payloadEnd_eq place
      have hadd := length_bytesFrom place
      rw [← TcpSegment.bytesFrom] at hadd
      obtain ⟨j, hj, hyj⟩ := hd.settled hb settled (y := y) (by
        rw [TcpConnection.reaches_deliver]
        show connection.Reaches (connection.receiveNext + _) y
        rw [← hend]
        exact hy)
      have hready := hd.readyLength
      have hcap := hd.room
      have hmax := hd.le_capacity
      change y = connection.receiveNext + _ + _ at hyj
      rw [TcpConnection.deliver_receiveReady, List.length_append] at hready
      have hdist : (y - connection.receiveNext).toNat =
          (segment.bytesFrom connection.receiveNext).length + j := by
        rw [hyj]
        bv_omega
      omega

/-! ### ACK processing moves none of this -/

section AfterAck

variable {connection : TcpConnection} {segment : TcpSegment}

@[simp] theorem TcpConnection.reaches_afterAck {x y : BitVec 32} :
    (connection.afterAck segment).Reaches x y ↔ connection.Reaches x y :=
  ⟨fun h => h.congr (TcpConnection.afterAck_reassembly ..).symm,
    fun h => h.congr (TcpConnection.afterAck_reassembly ..)⟩

@[simp] theorem TcpConnection.takes_afterAck :
    (connection.afterAck segment).Takes segment ↔ connection.Takes segment := by
  unfold TcpConnection.Takes TcpConnection.HasRoom
  rw [TcpConnection.afterAck_receiveNext, TcpConnection.afterAck_receiveReady]

@[simp] theorem TcpConnection.buffers_afterAck :
    (connection.afterAck segment).buffers segment = connection.buffers segment := by
  unfold TcpConnection.buffers rangeAlreadyBuffered
  rw [TcpConnection.afterAck_reassembly]

/-- ACK processing does not change what is refused. -/
@[simp] theorem TcpConnection.refuses_afterAck :
    (connection.afterAck segment).Refuses segment ↔ connection.Refuses segment := by
  unfold TcpConnection.Refuses
  simp only [TcpConnection.reaches_afterAck, TcpConnection.buffers_afterAck,
    TcpConnection.afterAck_receiveNext, TcpConnection.afterAck_reassembly,
    TcpConnection.afterAck_receiveReady]

end AfterAck

end Netstack
