/-
# Where the promotion loop stops

`Netstack.TcpConnection.Promotion` follows the loop of `promote_reassembly` from
step to step, with the ready buffer of the source.  Here the loop is seen as a
scan that is repeated while it moves (`Netstack.Library.Scan`), for a ready buffer
of any capacity: how many scans it makes, what each iteration clips, what it adds
up to, and where it stops.

The measure is the number of used slots, so the sixteen slots allow seventeen
scans.  The invariant is `Delivered`: the bytes appended so far are as many as
`receive_next` advanced, and every slot still in use has 2048 bytes of the budget
left, so that the advance never goes round the circle.
-/

import Netstack.Library.Scan
import Netstack.TcpConnection.Engine
import Netstack.TcpConnection.Promotion

namespace Netstack

/-! ### The loop body with a ready buffer of any capacity -/

/-- `ready_append`, for a ready buffer of `capacity` bytes -/
def readyAppendIn (capacity : ℕ) (connection : TcpConnection) (data : List UInt8) :
    Option TcpConnection :=
  if data.length = 0 then some connection
  else if connection.receiveReady.length > capacity then none
  else if data.length > capacity - connection.receiveReady.length then none
  else some { connection with receiveReady := connection.receiveReady ++ data }

/-- The body of the `for` loop of `promote_reassembly`, for a ready buffer of
`capacity` bytes. -/
def promoteSlotIn (capacity : ℕ) (i : SlotIndex) (connection : TcpConnection) :
    Except TcpConnection (TcpConnection × Bool) :=
  let slot := connection.reassembly i
  if !slot.used then .ok (connection, false)
  else if seqLe slot.slotEnd connection.receiveNext then
    .ok (removeReassemblySlot connection i, true)
  else if seqGt slot.sequenceNumber connection.receiveNext then .ok (connection, false)
  else
    let overlap := (connection.receiveNext - slot.sequenceNumber).toNat
    if overlap > slot.payload.length then .ok (connection, false)
    else match readyAppendIn capacity connection (slot.payload.drop overlap) with
      | none => .error connection
      | some connection =>
        let connection := { connection with
          receiveNext := connection.receiveNext + BitVec.ofNat 32 (slot.payload.length - overlap) }
        .ok (removeReassemblySlot connection i, true)

/-- The `while` loop of `promote_reassembly` as a repeated scan, for a ready buffer
of `capacity` bytes. -/
abbrev PromoteRun (capacity scans : ℕ) (connection : TcpConnection)
    (trace : List (SlotIndex × TcpConnection)) (result : Except TcpConnection TcpConnection) :
    Prop :=
  Scan.Loop (promoteSlotIn capacity) (List.finRange tcpReassemblySlotCount) scans connection
    trace result

/-- The capacity of the source gives the loop body of the source. -/
theorem promoteSlotIn_capacity :
    promoteSlotIn tcpReceiveReadyCapacity = fun i connection => promoteSlot connection i := rfl

/-- The capacity of the source gives the loop of the source. -/
theorem promoteRun_capacity {scans : ℕ} {connection : TcpConnection}
    {trace : List (SlotIndex × TcpConnection)} {result : Except TcpConnection TcpConnection} :
    PromoteRun tcpReceiveReadyCapacity scans connection trace result ↔
      PromoteLoop scans connection trace result := by
  rw [PromoteRun, promoteSlotIn_capacity]

/-! ### One iteration -/

/-- The buffer takes all of the data or none of it. -/
theorem readyAppendIn_cases (capacity : ℕ) (connection : TcpConnection) (data : List UInt8) :
    readyAppendIn capacity connection data = none ∨
      readyAppendIn capacity connection data =
        some { connection with receiveReady := connection.receiveReady ++ data } := by
  unfold readyAppendIn
  split_ifs with hnil
  · rw [List.length_eq_zero_iff.1 hnil, List.append_nil]
    exact Or.inr rfl
  · exact Or.inl rfl
  · exact Or.inl rfl
  · exact Or.inr rfl

/-- The overlap at a slot or segment that begins at `start` is what the code
clips: the guard after it stays out of reach, and bytes remain. -/
theorem overlap_lt {start x : BitVec 32} {len : ℕ} (hpos : 1 ≤ len) (hlen : len < 2 ^ 31)
    (hold : seqLe (start + BitVec.ofNat 32 len) x = false) (hfuture : seqGt start x = false) :
    (x - start).toNat < len :=
  (inRange_iff_seq hpos hlen).2 ⟨hold, hfuture⟩

/-- The loop body computes the overlap at slot `i`: the slot is in use, has not
been fully received, and does not begin in the future. -/
def TcpConnection.Overlaps (connection : TcpConnection) (i : SlotIndex) : Prop :=
  (connection.reassembly i).used = true ∧
    seqLe (connection.reassembly i).slotEnd connection.receiveNext = false ∧
    seqGt (connection.reassembly i).sequenceNumber connection.receiveNext = false

/-- The bytes of slot `i` from `receive_next` on. -/
def TcpConnection.clipped (connection : TcpConnection) (i : SlotIndex) : List UInt8 :=
  (connection.reassembly i).payload.drop
    (connection.receiveNext - (connection.reassembly i).sequenceNumber).toNat

/-- A slot that overlaps has a byte that is new: so the length that is clipped is less than the
payload, and the check `overlap > payload_len` of the source never skips it. -/
theorem TcpConnection.Overlaps.overlap_lt {connection : TcpConnection} {i : SlotIndex}
    (hb : connection.SlotsBounded) (h : connection.Overlaps i) :
    (connection.receiveNext - (connection.reassembly i).sequenceNumber).toNat <
      (connection.reassembly i).payload.length := by
  obtain ⟨hused, hold, hfuture⟩ := h
  obtain ⟨hpos, hlen⟩ := hb i hused
  have hmax : tcpReassemblySlotDataLen = 2048 := rfl
  exact Netstack.overlap_lt hpos (by omega) hold hfuture

/-- The loop body at a slot it clips. -/
theorem promoteSlotIn_of_overlaps (capacity : ℕ) {connection : TcpConnection} {i : SlotIndex}
    (hb : connection.SlotsBounded) (h : connection.Overlaps i) :
    promoteSlotIn capacity i connection =
      match readyAppendIn capacity connection (connection.clipped i) with
      | none => .error connection
      | some _ => .ok (removeReassemblySlot (connection.deliver (connection.clipped i)) i, true) := by
  have hlt := h.overlap_lt hb
  obtain ⟨hused, hold, hfuture⟩ := h
  unfold promoteSlotIn
  simp only [hused, hold, hfuture, Bool.not_true, Bool.false_eq_true, if_false,
    if_neg (Nat.lt_asymm hlt)]
  rw [← TcpConnection.clipped]
  rcases readyAppendIn_cases capacity connection (connection.clipped i) with heq | heq
  · rw [heq]
  · rw [heq]
    simp only [TcpConnection.deliver, TcpConnection.clipped, List.length_drop]

/-- Delivering nothing changes nothing. -/
theorem TcpConnection.deliver_nil (connection : TcpConnection) :
    connection.deliver [] = connection := by
  rw [TcpConnection.deliver, List.append_nil, List.length_nil, BitVec.add_zero]

/-- **One iteration.**  The loop body leaves the slot alone, empties it and delivers
some of its bytes, or fails for want of room. -/
theorem promoteSlotIn_cases (capacity : ℕ) {connection : TcpConnection}
    (hb : connection.SlotsBounded) (i : SlotIndex) :
    (promoteSlotIn capacity i connection = .ok (connection, false) ∧
        ((connection.reassembly i).used = true →
          seqGt (connection.reassembly i).sequenceNumber connection.receiveNext = true)) ∨
      (∃ data, promoteSlotIn capacity i connection =
          .ok (removeReassemblySlot (connection.deliver data) i, true) ∧
        (connection.reassembly i).used = true ∧ data.length ≤ tcpReassemblySlotDataLen) ∨
      (promoteSlotIn capacity i connection = .error connection ∧
        readyAppendIn capacity connection (connection.clipped i) = none) := by
  by_cases hused : (connection.reassembly i).used = true
  swap
  · exact Or.inl ⟨by simp [promoteSlotIn, hused], fun h => absurd h hused⟩
  by_cases hold : seqLe (connection.reassembly i).slotEnd connection.receiveNext = true
  · refine Or.inr (Or.inl ⟨[], ?_, hused, Nat.zero_le _⟩)
    rw [connection.deliver_nil]
    simp [promoteSlotIn, hused, hold]
  rw [Bool.not_eq_true] at hold
  by_cases hfuture : seqGt (connection.reassembly i).sequenceNumber connection.receiveNext = true
  · exact Or.inl ⟨by simp [promoteSlotIn, hused, hold, hfuture], fun _ => hfuture⟩
  rw [Bool.not_eq_true] at hfuture
  have heq := promoteSlotIn_of_overlaps capacity hb ⟨hused, hold, hfuture⟩
  rcases readyAppendIn_cases capacity connection (connection.clipped i) with hnone | hsome
  · rw [hnone] at heq
    exact Or.inr (Or.inr ⟨heq, hnone⟩)
  · rw [hsome] at heq
    refine Or.inr (Or.inl ⟨_, heq, hused, ?_⟩)
    rw [TcpConnection.clipped, List.length_drop]
    exact (Nat.sub_le _ _).trans (hb i hused).2

/-! ### The run -/

/-- The connection after `data` has been delivered since `start`, with the budget
that the slots still in use leave. -/
structure TcpConnection.Delivered (start connection : TcpConnection) (data : List UInt8) :
    Prop where
  bounded : connection.SlotsBounded
  ready : connection.receiveReady = start.receiveReady ++ data
  next : connection.receiveNext = start.receiveNext + BitVec.ofNat 32 data.length
  budget : data.length + tcpReassemblySlotDataLen * connection.usedSlots.card ≤
    tcpReassemblySlotDataLen * start.usedSlots.card

/-- Before the first delivery nothing was delivered. -/
theorem TcpConnection.Delivered.refl {connection : TcpConnection} (hb : connection.SlotsBounded) :
    connection.Delivered connection [] where
  bounded := hb
  ready := (List.append_nil _).symm
  next := by rw [List.length_nil, BitVec.add_zero]
  budget := by rw [List.length_nil, Nat.zero_add]

/-- The slots after an iteration that delivers `data` and empties slot `i`. -/
theorem TcpConnection.reassembly_emptied (connection : TcpConnection) (data : List UInt8)
    {i : SlotIndex} (hused : (connection.reassembly i).used = true) :
    (removeReassemblySlot (connection.deliver data) i).reassembly =
      Function.update connection.reassembly i TcpReassemblySlot.zero := by
  rw [@removeReassemblySlot_of_used (connection.deliver data) i hused]
  rfl

/-- Every delivery empties a used slot, which is why the scans come to an end. -/
theorem TcpConnection.usedSlots_card_emptied (connection : TcpConnection) (data : List UInt8)
    {i : SlotIndex} (hused : (connection.reassembly i).used = true) :
    (removeReassemblySlot (connection.deliver data) i).usedSlots.card <
      connection.usedSlots.card :=
  TcpConnection.usedSlots_card_lt hused (connection.reassembly_emptied data hused)

/-- An iteration that empties slot `i` pays for its bytes with the slot. -/
theorem TcpConnection.Delivered.empty {start connection : TcpConnection} {data more : List UInt8}
    {i : SlotIndex} (h : start.Delivered connection data)
    (hused : (connection.reassembly i).used = true)
    (hlen : more.length ≤ tcpReassemblySlotDataLen) :
    start.Delivered (removeReassemblySlot (connection.deliver more) i) (data ++ more) := by
  have heq := @removeReassemblySlot_of_used (connection.deliver more) i hused
  have hcard := connection.usedSlots_card_emptied more hused
  refine ⟨h.bounded.of_emptied (connection.reassembly_emptied more hused), ?_, ?_, ?_⟩
  · rw [heq]
    exact (congrArg (· ++ more) h.ready).trans (List.append_assoc ..)
  · rw [heq, List.length_append, ← SerialNumber.add_ofNat_add, ← h.next]
    rfl
  · have hbudget := h.budget
    have hmul := Nat.mul_le_mul_left tcpReassemblySlotDataLen (Nat.succ_le_of_lt hcard)
    rw [Nat.mul_succ] at hmul
    rw [List.length_append]
    omega

/-- What was delivered is as long as the way `receive_next` went. -/
theorem TcpConnection.Delivered.length_eq {start connection : TcpConnection} {data : List UInt8}
    (h : start.Delivered connection data) :
    data.length = (connection.receiveNext - start.receiveNext).toNat := by
  have hbudget := h.budget
  have hcard := start.usedSlots_card_le
  have hmul := Nat.mul_le_mul_left tcpReassemblySlotDataLen hcard
  have hmax : tcpReassemblySlotDataLen * tcpReassemblySlotCount = 32768 := rfl
  rw [h.next, BitVec.add_comm, BitVec.add_sub_cancel, BitVec.toNat_ofNat,
    Nat.mod_eq_of_lt (by omega)]

/-- The invariant of the loop. -/
theorem promoteSlotIn_delivered (capacity : ℕ) {start : TcpConnection} (i : SlotIndex)
    (connection next : TcpConnection) (moved : Bool)
    (h : ∃ data, start.Delivered connection data)
    (heq : promoteSlotIn capacity i connection = .ok (next, moved)) :
    ∃ data, start.Delivered next data := by
  obtain ⟨data, h⟩ := h
  rcases promoteSlotIn_cases capacity h.bounded i with
    ⟨hstill, -⟩ | ⟨more, hmove, hused, hlen⟩ | ⟨hfail, -⟩
  · cases hstill.symm.trans heq
    exact ⟨data, h⟩
  · cases hmove.symm.trans heq
    exact ⟨data ++ more, h.empty hused hlen⟩
  · cases hfail.symm.trans heq

/-- An iteration without progress changes nothing. -/
theorem promoteSlotIn_still (capacity : ℕ) {start : TcpConnection} (i : SlotIndex)
    (connection next : TcpConnection) (h : ∃ data, start.Delivered connection data)
    (heq : promoteSlotIn capacity i connection = .ok (next, false)) : next = connection := by
  obtain ⟨data, h⟩ := h
  rcases promoteSlotIn_cases capacity h.bounded i with ⟨hstill, -⟩ | ⟨_, hmove, -⟩ | ⟨hfail, -⟩
  · cases hstill.symm.trans heq
    rfl
  · cases hmove.symm.trans heq
  · cases hfail.symm.trans heq

/-- An iteration with progress empties a slot. -/
theorem promoteSlotIn_moves (capacity : ℕ) {start : TcpConnection} (i : SlotIndex)
    (connection next : TcpConnection) (h : ∃ data, start.Delivered connection data)
    (heq : promoteSlotIn capacity i connection = .ok (next, true)) :
    next.usedSlots.card < connection.usedSlots.card := by
  obtain ⟨data, h⟩ := h
  rcases promoteSlotIn_cases capacity h.bounded i with
    ⟨hstill, -⟩ | ⟨more, hmove, hused, -⟩ | ⟨hfail, -⟩
  · cases hstill.symm.trans heq
  · cases hmove.symm.trans heq
    exact connection.usedSlots_card_emptied more hused
  · cases hfail.symm.trans heq

/-- **Termination.**  The loop ends after at most seventeen scans. -/
theorem exists_promoteRun (capacity : ℕ) {connection : TcpConnection}
    (hb : connection.SlotsBounded) :
    ∃ scans trace result, scans ≤ tcpReassemblySlotCount + 1 ∧
      PromoteRun capacity scans connection trace result := by
  obtain ⟨scans, trace, result, hscans, hrun⟩ := Scan.exists_loop
    (I := fun c => ∃ data, connection.Delivered c data) (μ := fun c => c.usedSlots.card)
    (promoteSlotIn_delivered capacity) (promoteSlotIn_still capacity)
    (promoteSlotIn_moves capacity) (List.finRange tcpReassemblySlotCount) ⟨[], .refl hb⟩
  have hcard := connection.usedSlots_card_le
  exact ⟨scans, trace, result, by omega, hrun⟩

/-- What the loop body does where it computes the overlap.  It clips less than the
slot holds, so at least one byte is new; those bytes are delivered and the slot is
emptied, or the buffer cannot take them.  The branch behind `overlap > payload_len`
is no outcome. -/
structure TcpConnection.ClipsAt (capacity : ℕ) (connection : TcpConnection) (i : SlotIndex) :
    Prop where
  overlap_lt : (connection.receiveNext - (connection.reassembly i).sequenceNumber).toNat <
    (connection.reassembly i).payload.length
  clipped_pos : 1 ≤ (connection.clipped i).length
  outcome : promoteSlotIn capacity i connection =
    match readyAppendIn capacity connection (connection.clipped i) with
    | none => .error connection
    | some _ => .ok (removeReassemblySlot (connection.deliver (connection.clipped i)) i, true)

/-- Where an overlapping slot is handled its clipping stays inside of the payload, whatever the
capacity. -/
theorem TcpConnection.Overlaps.clipsAt (capacity : ℕ) {connection : TcpConnection} {i : SlotIndex}
    (hb : connection.SlotsBounded) (h : connection.Overlaps i) :
    connection.ClipsAt capacity i where
  overlap_lt := h.overlap_lt hb
  clipped_pos := by
    have hlt := h.overlap_lt hb
    rw [TcpConnection.clipped, List.length_drop]
    omega
  outcome := promoteSlotIn_of_overlaps capacity hb h

/-- The invariant at the end of a run: regular, or at an append that fails. -/
theorem PromoteRun.end_delivered {capacity scans : ℕ} {connection : TcpConnection}
    {trace : List (SlotIndex × TcpConnection)} {result : Except TcpConnection TcpConnection}
    (h : PromoteRun capacity scans connection trace result) (hb : connection.SlotsBounded) :
    ∃ last data, connection.Delivered last data ∧
      (result = .ok last ∨ result = .error last ∧
        ∃ i, readyAppendIn capacity last (last.clipped i) = none) := by
  obtain ⟨-, hok, herror⟩ := h.invariant (I := fun c => ∃ data, connection.Delivered c data)
    (promoteSlotIn_delivered capacity) ⟨[], .refl hb⟩
  cases hresult : result with
  | ok last =>
      obtain ⟨data, hlast⟩ := hok last hresult
      exact ⟨last, data, hlast, Or.inl rfl⟩
  | error last =>
      obtain ⟨i, c, ⟨data, hc⟩, hstep⟩ := herror last hresult
      rcases promoteSlotIn_cases capacity hc.bounded i with
        ⟨hstill, -⟩ | ⟨_, hmove, -⟩ | ⟨hfail, hnone⟩
      · cases hstill.symm.trans hstep
      · cases hmove.symm.trans hstep
      · cases hfail.symm.trans hstep
        exact ⟨_, data, hc, Or.inr ⟨rfl, i, hnone⟩⟩

/-- At a regular end no used slot begins at or before `receive_next`. -/
theorem PromoteRun.settled {capacity scans : ℕ} {connection last : TcpConnection}
    {trace : List (SlotIndex × TcpConnection)}
    (h : PromoteRun capacity scans connection trace (.ok last)) (hb : connection.SlotsBounded)
    (i : SlotIndex) (hused : (last.reassembly i).used = true) :
    seqGt (last.reassembly i).sequenceNumber last.receiveNext = true := by
  have hstart : ∃ data, connection.Delivered connection data := ⟨[], .refl hb⟩
  obtain ⟨-, hok, -⟩ := h.invariant (promoteSlotIn_delivered capacity) hstart
  obtain ⟨data, hlast⟩ := hok last rfl
  have hstill := h.fixpoint (promoteSlotIn_delivered capacity) (promoteSlotIn_still capacity)
    hstart i (List.mem_finRange i)
  rcases promoteSlotIn_cases capacity hlast.bounded i with
    ⟨-, hgt⟩ | ⟨_, hmove, -⟩ | ⟨hfail, -⟩
  · exact hgt hused
  · exact Bool.noConfusion (congrArg Prod.snd (Except.ok.inj (hmove.symm.trans hstill)))
  · cases hfail.symm.trans hstill

/-- **Promotion reaches a fixpoint.**  Whatever the slots hold and whatever the
ready buffer can take, the loop ends after at most seventeen scans; an iteration
that computes the overlap clips less than the slot holds; what was appended is as
long as the way of `receive_next`; and at a regular end every used slot begins
behind `receive_next`.  `process_payload` clips less than the segment holds, too. -/
theorem promotion_reaches_fixpoint (capacity : ℕ) {connection : TcpConnection}
    (hb : connection.SlotsBounded) :
    (∃ scans trace result last delivered,
      scans ≤ 17 ∧
      PromoteRun capacity scans connection trace result ∧
      (capacity = tcpReceiveReadyCapacity → promoteLoop connection = result) ∧
      (∀ visit ∈ trace, visit.2.Overlaps visit.1 → visit.2.ClipsAt capacity visit.1) ∧
      (result = .ok last ∨ result = .error last ∧
        ∃ i, readyAppendIn capacity last (last.clipped i) = none) ∧
      last.receiveReady = connection.receiveReady ++ delivered ∧
      delivered.length = (last.receiveNext - connection.receiveNext).toNat ∧
      (result = .ok last → ∀ i, (last.reassembly i).used = true →
        seqGt (last.reassembly i).sequenceNumber last.receiveNext = true)) ∧
    ∀ (receiver : TcpConnection) (segment : TcpSegment), 1 ≤ segment.payload.length →
      seqLe segment.payloadEnd receiver.receiveNext = false →
      seqGt segment.sequenceNumber receiver.receiveNext = false →
      (receiver.receiveNext - segment.sequenceNumber).toNat < segment.payload.length := by
  refine ⟨?_, fun receiver segment hpos hold hfuture => ?_⟩
  · obtain ⟨scans, trace, result, hscans, hrun⟩ := exists_promoteRun capacity hb
    obtain ⟨last, delivered, hlast, hend⟩ := hrun.end_delivered hb
    obtain ⟨htrace, -⟩ := hrun.invariant (I := fun c => ∃ data, connection.Delivered c data)
      (promoteSlotIn_delivered capacity) ⟨[], .refl hb⟩
    refine ⟨scans, trace, result, last, delivered, hscans, hrun, ?_, ?_, hend, hlast.ready,
      hlast.length_eq, ?_⟩
    · rintro rfl
      exact promoteWhile_of_loop (promoteRun_capacity.1 hrun) hscans
    · intro visit hvisit hoverlaps
      obtain ⟨data, hdata⟩ := htrace visit hvisit
      exact hoverlaps.clipsAt capacity hdata.bounded
    · rintro rfl
      exact hrun.settled hb
  · have hlen := segment.payload_length_lt
    exact overlap_lt hpos (by omega) hold hfuture

/-- A connection with a slot that begins before `receive_next`, in front of the wrap
of the sequence numbers, and one nested in it. -/
def nestedSlots : TcpConnection :=
  { tcpConnectionInit 40000 80 1000 with
    reassembly := fun i =>
      if i.val = 3 then ⟨true, 0xffffffff, [2]⟩
      else if i.val = 7 then ⟨true, 0xfffffffe, [1, 2, 3, 4]⟩
      else TcpReassemblySlot.zero }

theorem nestedSlots_slotsBounded : nestedSlots.SlotsBounded := by
  unfold TcpConnection.SlotsBounded
  decide

theorem promotion_reaches_fixpoint_nested :
    ∃ scans trace result, scans ≤ 17 ∧ PromoteRun 2 scans nestedSlots trace result :=
  have ⟨⟨scans, trace, result, _, _, hscans, hrun, _⟩, _⟩ :=
    promotion_reaches_fixpoint 2 nestedSlots_slotsBounded
  ⟨scans, trace, result, hscans, hrun⟩

end Netstack
