/-
# What promotion does

`promote_reassembly` scans the sixteen slots until a scan changes nothing.  Each
iteration of its inner loop does one of two things to the connection, or nothing:
it drops a slot whose bytes have all arrived, or it delivers the bytes of a slot
behind `receive_next` (`PromoteStep`).  So the whole loop is a sequence of such
steps, and what it leaves is one of two ends (`promoteLoop_cases`): no slot holds
`receive_next` any more (`Settled`), or the ready buffer cannot take the rest of
a slot that does (`Blocked`).  Everything later is proved about `PromoteStep`.

The loop is a scan that is repeated while it moves, so its rules are those of
`Netstack.Library.Scan`.  Every step empties a used slot, so it ends within
`TCP_REASSEMBLY_SLOT_COUNT + 1` scans and the fuel of `promoteWhile` plays no role
(`promoteLoop_eq`).
-/

import Mathlib.Data.Finset.Card
import Mathlib.Data.Fintype.Basic
import Mathlib.Logic.Relation
import Mathlib.Tactic.Push
import Netstack.Library.Scan
import Netstack.TcpConnection.Reassembly

namespace Netstack

open Relation (ReflTransGen)
open SerialNumber (dist InRange)

/-! ### Appending -/

/-- `data_len` more bytes fit into the ready buffer. -/
def TcpConnection.HasRoom (connection : TcpConnection) (len : ℕ) : Prop :=
  connection.receiveReady.length + len ≤ tcpReceiveReadyCapacity

instance (connection : TcpConnection) (len : ℕ) : Decidable (connection.HasRoom len) :=
  inferInstanceAs (Decidable (_ ≤ _))

/-- The connection after contiguous bytes were delivered: they are appended to
the ready buffer and `receive_next` moves behind them. -/
def TcpConnection.deliver (connection : TcpConnection) (data : List UInt8) : TcpConnection :=
  { connection with
    receiveReady := connection.receiveReady ++ data
    receiveNext := connection.receiveNext + BitVec.ofNat 32 data.length }

@[simp] theorem TcpConnection.deliver_receiveReady (connection : TcpConnection)
    (data : List UInt8) :
    (connection.deliver data).receiveReady = connection.receiveReady ++ data := rfl

/-- `ready_append` copies all of the data or fails for want of room. -/
theorem readyAppend_of_ne_nil {connection : TcpConnection} {data : List UInt8} (h : data ≠ []) :
    readyAppend connection data =
      if connection.HasRoom data.length then
        some { connection with receiveReady := connection.receiveReady ++ data }
      else none := by
  have hpos : data.length ≠ 0 := by simpa using h
  unfold readyAppend
  rw [if_neg hpos]
  by_cases hroom : connection.HasRoom data.length
  · have hle : connection.receiveReady.length + data.length ≤ tcpReceiveReadyCapacity := hroom
    rw [if_pos hroom, if_neg (by omega), if_neg (by omega)]
  · have hlt : ¬connection.receiveReady.length + data.length ≤ tcpReceiveReadyCapacity := hroom
    rw [if_neg hroom]
    split_ifs <;> first | rfl | omega

/-! ### Byte ranges -/

/-- The bytes of a payload that begins at `start`, from sequence number `x` on. -/
def bytesFrom (start : BitVec 32) (payload : List UInt8) (x : BitVec 32) : List UInt8 :=
  payload.drop (x - start).toNat

/-- The bytes from a position on and the bytes before it make up the payload. -/
theorem length_bytesFrom {start x : BitVec 32} {payload : List UInt8}
    (h : InRange start payload.length x) :
    (bytesFrom start payload x).length + (x - start).toNat = payload.length := by
  unfold SerialNumber.InRange at h
  rw [bytesFrom, List.length_drop]
  omega

/-- A position inside of a payload has a byte. -/
theorem bytesFrom_ne_nil {start x : BitVec 32} {payload : List UInt8}
    (h : InRange start payload.length x) : bytesFrom start payload x ≠ [] := by
  have hlen := length_bytesFrom h
  unfold SerialNumber.InRange at h
  intro hnil
  rw [hnil, List.length_nil] at hlen
  omega

/-- The two comparisons before every delivery let exactly the ranges through that
hold `receive_next`. -/
theorem inRange_iff_seq {start x : BitVec 32} {len : ℕ} (hpos : 1 ≤ len) (hlen : len < 2 ^ 31) :
    InRange start len x ↔
      seqLe (start + BitVec.ofNat 32 len) x = false ∧ seqGt start x = false := by
  rw [SerialNumber.inRange_iff_dist hpos (by omega), ← Bool.not_eq_true, ← Bool.not_eq_true,
    seqLe_iff, seqGt_iff]
  omega

/-! ### Slots -/

/-- Every used slot holds between one and `TCP_REASSEMBLY_SLOT_DATA_LEN` bytes. -/
def TcpConnection.SlotsBounded (connection : TcpConnection) : Prop :=
  ∀ i, (connection.reassembly i).used = true →
    1 ≤ (connection.reassembly i).payload.length ∧
      (connection.reassembly i).payload.length ≤ tcpReassemblySlotDataLen

/-- The slot holds the byte with sequence number `x`. -/
def TcpReassemblySlot.Holds (slot : TcpReassemblySlot) (x : BitVec 32) : Prop :=
  slot.used = true ∧ InRange slot.sequenceNumber slot.payload.length x

instance (slot : TcpReassemblySlot) (x : BitVec 32) : Decidable (slot.Holds x) :=
  inferInstanceAs (Decidable (_ ∧ _))

/-- The bytes of the slot from sequence number `x` on. -/
def TcpReassemblySlot.bytesFrom (slot : TcpReassemblySlot) (x : BitVec 32) : List UInt8 :=
  Netstack.bytesFrom slot.sequenceNumber slot.payload x

/-- Emptying a used slot: the guard on `reassembly_count` only keeps it from going below zero, as
the subtraction of `ℕ` does. -/
theorem removeReassemblySlot_of_used {connection : TcpConnection} {i : SlotIndex}
    (h : (connection.reassembly i).used = true) :
    removeReassemblySlot connection i = { connection with
      reassembly := Function.update connection.reassembly i TcpReassemblySlot.zero
      reassemblyCount := connection.reassemblyCount - 1 } := by
  unfold removeReassemblySlot
  rw [h]
  simp only [Bool.not_true, Bool.false_eq_true, if_false]
  congr 1
  split_ifs <;> omega

/-- The slots in use. -/
def TcpConnection.usedSlots (connection : TcpConnection) : Finset SlotIndex :=
  Finset.univ.filter fun i => (connection.reassembly i).used = true

@[simp] theorem TcpConnection.mem_usedSlots {connection : TcpConnection} {i : SlotIndex} :
    i ∈ connection.usedSlots ↔ (connection.reassembly i).used = true := by
  simp [TcpConnection.usedSlots]

theorem TcpConnection.usedSlots_card_le (connection : TcpConnection) :
    connection.usedSlots.card ≤ tcpReassemblySlotCount :=
  (Finset.card_le_univ _).trans_eq (Fintype.card_fin _)

/-- Emptying a used slot leaves fewer. -/
theorem TcpConnection.usedSlots_card_lt {connection next : TcpConnection} {i : SlotIndex}
    (hused : (connection.reassembly i).used = true)
    (heq : next.reassembly = Function.update connection.reassembly i TcpReassemblySlot.zero) :
    next.usedSlots.card < connection.usedSlots.card := by
  refine Finset.card_lt_card ⟨fun j hj => ?_, fun hsub => ?_⟩
  · rw [TcpConnection.mem_usedSlots, heq] at hj
    rw [TcpConnection.mem_usedSlots]
    by_cases hji : j = i
    · exact hji ▸ hused
    · rwa [Function.update_of_ne hji] at hj
  · have := hsub (TcpConnection.mem_usedSlots.2 hused)
    rw [TcpConnection.mem_usedSlots, heq, Function.update_self] at this
    exact absurd this Bool.false_ne_true

/-- Emptying a slot leaves the others bounded. -/
theorem TcpConnection.SlotsBounded.of_emptied {connection next : TcpConnection} {i : SlotIndex}
    (hb : connection.SlotsBounded)
    (heq : next.reassembly = Function.update connection.reassembly i TcpReassemblySlot.zero) :
    next.SlotsBounded := by
  intro j hj
  rw [heq] at hj ⊢
  by_cases hji : j = i
  · rw [hji, Function.update_self] at hj
    exact absurd hj Bool.false_ne_true
  · rw [Function.update_of_ne hji] at hj ⊢
    exact hb j hj

/-! ### The steps of the loop -/

/-- One effect of the loop body of `promote_reassembly`. -/
inductive PromoteStep : TcpConnection → TcpConnection → Prop
  /-- the slot has already been fully received -/
  | discard {connection : TcpConnection} {i : SlotIndex}
      (used : (connection.reassembly i).used = true)
      (received : seqLe (connection.reassembly i).slotEnd connection.receiveNext = true) :
      PromoteStep connection (removeReassemblySlot connection i)
  /-- the slot holds `receive_next`, and its bytes from there on are delivered -/
  | deliver {connection : TcpConnection} {i : SlotIndex}
      (holds : (connection.reassembly i).Holds connection.receiveNext)
      (room : connection.HasRoom
        ((connection.reassembly i).bytesFrom connection.receiveNext).length) :
      PromoteStep connection (removeReassemblySlot
        (connection.deliver ((connection.reassembly i).bytesFrom connection.receiveNext)) i)

/-- The loop body leaves the slot alone: it is free, or it begins in the future. -/
def TcpConnection.Skips (connection : TcpConnection) (i : SlotIndex) : Prop :=
  (connection.reassembly i).used = true →
    seqGt (connection.reassembly i).sequenceNumber connection.receiveNext = true ∧
      seqLe (connection.reassembly i).slotEnd connection.receiveNext = false

/-- No slot is left to promote. -/
def TcpConnection.Settled (connection : TcpConnection) : Prop := ∀ i, connection.Skips i

/-- A slot holds `receive_next`, and the ready buffer cannot take its bytes. -/
def TcpConnection.Blocked (connection : TcpConnection) : Prop :=
  ∃ i, (connection.reassembly i).Holds connection.receiveNext ∧
    ¬connection.HasRoom ((connection.reassembly i).bytesFrom connection.receiveNext).length

/-- The loop body at a slot that holds `receive_next`. -/
theorem promoteSlot_of_holds {connection : TcpConnection} {i : SlotIndex}
    (hlen : (connection.reassembly i).payload.length ≤ tcpReassemblySlotDataLen)
    (h : (connection.reassembly i).Holds connection.receiveNext) :
    promoteSlot connection i =
      let fresh := (connection.reassembly i).bytesFrom connection.receiveNext
      if connection.HasRoom fresh.length then
        .ok (removeReassemblySlot (connection.deliver fresh) i, true)
      else .error connection := by
  have hadd := length_bytesFrom h.2
  have hne : (connection.reassembly i).bytesFrom connection.receiveNext ≠ [] :=
    bytesFrom_ne_nil h.2
  rw [← TcpReassemblySlot.bytesFrom] at hadd
  have hlt : (connection.receiveNext - (connection.reassembly i).sequenceNumber).toNat <
      (connection.reassembly i).payload.length := h.2
  have hmax : tcpReassemblySlotDataLen = 2048 := rfl
  obtain ⟨hold, hgt⟩ := (inRange_iff_seq (by omega) (by omega)).1 h.2
  rw [← TcpReassemblySlot.slotEnd] at hold
  have hnew : (connection.reassembly i).payload.length -
      (connection.receiveNext - (connection.reassembly i).sequenceNumber).toNat =
      ((connection.reassembly i).bytesFrom connection.receiveNext).length := by omega
  unfold promoteSlot
  -- the guard `overlap > slot->payload_len` is never taken
  simp only [h.1, hold, hgt, Bool.not_true, Bool.false_eq_true, if_false,
    if_neg (show ¬(connection.receiveNext - (connection.reassembly i).sequenceNumber).toNat >
      (connection.reassembly i).payload.length by omega)]
  rw [← Netstack.bytesFrom, ← TcpReassemblySlot.bytesFrom,
    readyAppend_of_ne_nil hne, hnew]
  split_ifs <;> rfl

/-- **One iteration.**  The loop body leaves the slot alone, makes a
`PromoteStep`, or fails on a blocked connection without a change. -/
theorem promoteSlot_cases {connection : TcpConnection} (hbounded : connection.SlotsBounded)
    (i : SlotIndex) :
    (promoteSlot connection i = .ok (connection, false) ∧ connection.Skips i) ∨
      (∃ next, promoteSlot connection i = .ok (next, true) ∧ PromoteStep connection next) ∨
      (promoteSlot connection i = .error connection ∧ connection.Blocked) := by
  by_cases hused : (connection.reassembly i).used = true
  swap
  · exact Or.inl ⟨by simp [promoteSlot, hused], fun h => absurd h hused⟩
  by_cases hold : seqLe (connection.reassembly i).slotEnd connection.receiveNext = true
  · exact Or.inr (Or.inl ⟨_, by simp [promoteSlot, hused, hold], .discard hused hold⟩)
  rw [Bool.not_eq_true] at hold
  by_cases hgt : seqGt (connection.reassembly i).sequenceNumber connection.receiveNext = true
  · exact Or.inl ⟨by simp [promoteSlot, hused, hold, hgt], fun _ => ⟨hgt, hold⟩⟩
  rw [Bool.not_eq_true] at hgt
  obtain ⟨hpos, hlen⟩ := hbounded i hused
  have hmax : tcpReassemblySlotDataLen = 2048 := rfl
  have hholds : (connection.reassembly i).Holds connection.receiveNext :=
    ⟨hused, (inRange_iff_seq hpos (by omega)).2 ⟨hold, hgt⟩⟩
  have heq := promoteSlot_of_holds hlen hholds
  by_cases hroom : connection.HasRoom
      ((connection.reassembly i).bytesFrom connection.receiveNext).length
  · exact Or.inr (Or.inl ⟨_, by rw [heq]; exact if_pos hroom, .deliver hholds hroom⟩)
  · exact Or.inr (Or.inr ⟨by rw [heq]; exact if_neg hroom, i, hholds, hroom⟩)

/-! ### Termination -/

/-- Every step empties a used slot and touches no other. -/
theorem PromoteStep.reassembly {connection next : TcpConnection}
    (h : PromoteStep connection next) :
    ∃ i, (connection.reassembly i).used = true ∧
      next.reassembly = Function.update connection.reassembly i TcpReassemblySlot.zero := by
  cases h with
  | @discard i used received => exact ⟨i, used, by rw [removeReassemblySlot_of_used used]⟩
  | @deliver i holds room =>
      exact ⟨i, holds.1, by rw [removeReassemblySlot_of_used (by exact holds.1)]; rfl⟩

theorem PromoteStep.usedSlots_card {connection next : TcpConnection}
    (h : PromoteStep connection next) : next.usedSlots.card < connection.usedSlots.card := by
  obtain ⟨i, hused, heq⟩ := h.reassembly
  exact TcpConnection.usedSlots_card_lt hused heq

/-- A step leaves every slot as it was or free. -/
theorem PromoteStep.slot {connection next : TcpConnection} (h : PromoteStep connection next)
    (j : SlotIndex) : next.reassembly j = connection.reassembly j ∨
      (next.reassembly j).used = false := by
  obtain ⟨i, -, heq⟩ := h.reassembly
  by_cases hji : j = i
  · exact Or.inr (by rw [heq, hji, Function.update_self]; rfl)
  · exact Or.inl (by rw [heq, Function.update_of_ne hji])

theorem PromoteStep.slotsBounded {connection next : TcpConnection}
    (h : PromoteStep connection next) (hb : connection.SlotsBounded) : next.SlotsBounded := by
  obtain ⟨i, -, heq⟩ := h.reassembly
  exact hb.of_emptied heq

/-- **A property that the steps keep survives the loop.** -/
theorem promoteSteps_invariant {P : TcpConnection → Prop}
    (hstep : ∀ connection next, P connection → PromoteStep connection next → P next)
    {connection last : TcpConnection} (h : ReflTransGen PromoteStep connection last)
    (hP : P connection) : P last := by
  induction h with
  | refl => exact hP
  | tail _ hlast ih => exact hstep _ _ ih hlast

/-- What the loop body returns after an iteration. -/
theorem promoteSlot_ok {connection next : TcpConnection} {i : SlotIndex} {moved : Bool}
    (hb : connection.SlotsBounded) (h : promoteSlot connection i = .ok (next, moved)) :
    (moved = false ∧ next = connection ∧ connection.Skips i) ∨
      (moved = true ∧ PromoteStep connection next) := by
  rcases promoteSlot_cases hb i with ⟨heq, hskip⟩ | ⟨after, heq, hstep⟩ | ⟨heq, -⟩
  · cases heq.symm.trans h
    exact Or.inl ⟨rfl, rfl, hskip⟩
  · cases heq.symm.trans h
    exact Or.inr ⟨rfl, hstep⟩
  · cases heq.symm.trans h

/-- The loop body fails on a blocked connection, and leaves it as it is. -/
theorem promoteSlot_error {connection last : TcpConnection} {i : SlotIndex}
    (hb : connection.SlotsBounded) (h : promoteSlot connection i = .error last) :
    last = connection ∧ connection.Blocked := by
  rcases promoteSlot_cases hb i with ⟨heq, -⟩ | ⟨after, heq, -⟩ | ⟨heq, hblocked⟩
  · cases heq.symm.trans h
  · cases heq.symm.trans h
  · cases heq.symm.trans h
    exact ⟨rfl, hblocked⟩

/-- The `while` loop of `promote_reassembly` as a repeated scan: how many scans it
makes, at which slots of which connections its body runs, and how it ends. -/
abbrev PromoteLoop (scans : ℕ) (connection : TcpConnection)
    (trace : List (SlotIndex × TcpConnection)) (result : Except TcpConnection TcpConnection) :
    Prop :=
  Scan.Loop (fun i connection => promoteSlot connection i)
    (List.finRange tcpReassemblySlotCount) scans connection trace result

/-- The `for` loop is the scan of the library, which its rules are stated for. -/
theorem promoteScan_eq (indices : List SlotIndex) (connection : TcpConnection) (progress : Bool) :
    promoteScan indices connection progress =
      Scan.scan (fun i connection => promoteSlot connection i) indices connection progress := by
  induction indices generalizing connection progress with
  | nil => rfl
  | cons i rest ih =>
      rw [promoteScan, Scan.scan]
      cases promoteSlot connection i with
      | error last => rfl
      | ok after => exact ih after.1 (progress || after.2)

/-- With fuel for its scans the function ends as the loop does. -/
theorem promoteWhile_of_loop {scans fuel : ℕ} {connection : TcpConnection}
    {trace : List (SlotIndex × TcpConnection)} {result : Except TcpConnection TcpConnection}
    (h : PromoteLoop scans connection trace result) (hfuel : scans ≤ fuel) :
    promoteWhile fuel connection = result := by
  induction h generalizing fuel with
  | failed hscan =>
      obtain ⟨fuel, rfl⟩ : ∃ k, fuel = k + 1 := ⟨fuel - 1, by omega⟩
      rw [promoteWhile, promoteScan_eq, hscan]
  | done hscan =>
      obtain ⟨fuel, rfl⟩ : ∃ k, fuel = k + 1 := ⟨fuel - 1, by omega⟩
      rw [promoteWhile, promoteScan_eq, hscan]
  | again hscan _ ih =>
      obtain ⟨fuel, rfl⟩ : ∃ k, fuel = k + 1 := ⟨fuel - 1, by omega⟩
      rw [promoteWhile, promoteScan_eq, hscan]
      exact ih (by omega)

/-- What the loop from `start` keeps: steps lead to the connection, and its slots
are bounded. -/
structure TcpConnection.Promotes (start connection : TcpConnection) : Prop where
  steps : ReflTransGen PromoteStep start connection
  bounded : connection.SlotsBounded

/-- The loop body moves along promotion steps, so that what these keep holds after a scan. -/
theorem promoteSlot_promotes {start : TcpConnection} (i : SlotIndex)
    (connection next : TcpConnection) (moved : Bool) (h : start.Promotes connection)
    (heq : promoteSlot connection i = .ok (next, moved)) : start.Promotes next := by
  rcases promoteSlot_ok h.bounded heq with ⟨-, rfl, -⟩ | ⟨-, hstep⟩
  · exact h
  · exact ⟨h.steps.tail hstep, hstep.slotsBounded h.bounded⟩

/-- An iteration without progress changes nothing. -/
theorem promoteSlot_still {start : TcpConnection} (i : SlotIndex)
    (connection next : TcpConnection) (h : start.Promotes connection)
    (heq : promoteSlot connection i = .ok (next, false)) : next = connection := by
  rcases promoteSlot_ok h.bounded heq with ⟨-, hnext, -⟩ | ⟨htrue, -⟩
  · exact hnext
  · exact absurd htrue Bool.false_ne_true

/-- An iteration with progress empties a slot. -/
theorem promoteSlot_moves {start : TcpConnection} (i : SlotIndex)
    (connection next : TcpConnection) (h : start.Promotes connection)
    (heq : promoteSlot connection i = .ok (next, true)) :
    next.usedSlots.card < connection.usedSlots.card := by
  rcases promoteSlot_ok h.bounded heq with ⟨hfalse, -⟩ | ⟨-, hstep⟩
  · exact absurd hfalse.symm Bool.false_ne_true
  · exact hstep.usedSlots_card

/-- The loop ends within one scan more than there are used slots. -/
theorem exists_promoteLoop {connection : TcpConnection} (hbounded : connection.SlotsBounded) :
    ∃ scans trace result, scans ≤ connection.usedSlots.card + 1 ∧
      PromoteLoop scans connection trace result :=
  Scan.exists_loop (μ := fun connection => connection.usedSlots.card)
    promoteSlot_promotes promoteSlot_still promoteSlot_moves _ ⟨.refl, hbounded⟩

/-- With more fuel than used slots the loop ends by itself. -/
theorem promoteWhile_cases (fuel : ℕ) {connection : TcpConnection}
    (hbounded : connection.SlotsBounded) (hfuel : connection.usedSlots.card < fuel) :
    (∃ last, promoteWhile fuel connection = .error last ∧
        ReflTransGen PromoteStep connection last ∧ last.Blocked) ∨
      (∃ last, promoteWhile fuel connection = .ok last ∧
        ReflTransGen PromoteStep connection last ∧ last.Settled) := by
  obtain ⟨scans, trace, result, hscans, hloop⟩ := exists_promoteLoop hbounded
  have hstart : connection.Promotes connection := ⟨.refl, hbounded⟩
  obtain ⟨-, hok, herror⟩ := hloop.invariant promoteSlot_promotes hstart
  rw [promoteWhile_of_loop hloop (by omega)]
  cases result with
  | error last =>
      obtain ⟨i, c, hc, hfail⟩ := herror last rfl
      obtain ⟨rfl, hblocked⟩ := promoteSlot_error hc.bounded hfail
      exact Or.inl ⟨last, rfl, hc.steps, hblocked⟩
  | ok last =>
      have hlast := hok last rfl
      refine Or.inr ⟨last, rfl, hlast.steps, fun i => ?_⟩
      have hstill := hloop.fixpoint promoteSlot_promotes promoteSlot_still hstart i
        (List.mem_finRange i)
      rcases promoteSlot_ok hlast.bounded hstill with ⟨-, -, hskips⟩ | ⟨htrue, -⟩
      · exact hskips
      · exact absurd htrue Bool.false_ne_true

/-- More fuel than used slots changes nothing. -/
theorem promoteWhile_succ (fuel : ℕ) {connection : TcpConnection}
    (hbounded : connection.SlotsBounded) (hfuel : connection.usedSlots.card < fuel) :
    promoteWhile (fuel + 1) connection = promoteWhile fuel connection := by
  obtain ⟨scans, trace, result, hscans, hloop⟩ := exists_promoteLoop hbounded
  rw [promoteWhile_of_loop hloop (show scans ≤ fuel by omega),
    promoteWhile_of_loop hloop (show scans ≤ fuel + 1 by omega)]

/-- The loop is the `while` loop of the source: scan again while there was progress. -/
theorem promoteLoop_eq {connection : TcpConnection} (hbounded : connection.SlotsBounded) :
    promoteLoop connection =
      match promoteScan (List.finRange tcpReassemblySlotCount) connection false with
      | .error connection => .error connection
      | .ok (connection, true) => promoteLoop connection
      | .ok (connection, false) => .ok connection := by
  rw [promoteLoop, ← promoteWhile_succ _ hbounded (Nat.lt_succ_of_le connection.usedSlots_card_le)]
  rfl

/-- **The loop of `promote_reassembly`.**  It takes steps until no slot is left to
promote, or until a slot that holds `receive_next` does not fit. -/
theorem promoteLoop_cases {connection : TcpConnection} (hbounded : connection.SlotsBounded) :
    (∃ last, promoteLoop connection = .error last ∧
        ReflTransGen PromoteStep connection last ∧ last.Blocked) ∨
      (∃ last, promoteLoop connection = .ok last ∧
        ReflTransGen PromoteStep connection last ∧ last.Settled) :=
  promoteWhile_cases _ hbounded (Nat.lt_succ_of_le connection.usedSlots_card_le)

end Netstack
