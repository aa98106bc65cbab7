/-
# The connection record

`include/tcp_connection.h` and the sequence comparisons at the head of
`src/tcp_connection.c`.

`reassembly[16]` is a function on `Fin 16`.  The payload of a slot and the ready
buffer are byte lists: `payload_len` and `receive_ready_len` are their lengths,
and the capacities of the two arrays are what the code checks before it copies.
-/

import Netstack.Library.SerialNumber
import Netstack.Tcp.Segment

namespace Netstack

/-- `TCP_REASSEMBLY_SLOT_COUNT` -/
def tcpReassemblySlotCount : ℕ := 16

/-- `TCP_REASSEMBLY_SLOT_DATA_LEN` -/
def tcpReassemblySlotDataLen : ℕ := 2048

/-- `TCP_RECEIVE_READY_CAPACITY` -/
def tcpReceiveReadyCapacity : ℕ := 32768

/-- `TCP_DEFAULT_RTO_MS` -/
def tcpDefaultRtoMs : BitVec 32 := 1000

/-- `TCP_DEFAULT_RETRANSMIT_LIMIT` -/
def tcpDefaultRetransmitLimit : BitVec 32 := 5

/-- `TCP_MAX_RTO_MS` -/
def tcpMaxRtoMs : BitVec 32 := 16000

/-- `tcp_connection_state_t` -/
inductive TcpConnectionState where
  | closed
  | synSent
  | established
  | finWait1
  | finWait2
  | closeWait
  | lastAck
  | timeWait
  | reset
deriving DecidableEq, Repr

/-- `tcp_reassembly_slot_t` -/
structure TcpReassemblySlot where
  used : Bool
  sequenceNumber : BitVec 32
  payload : List UInt8
deriving DecidableEq, Repr

/-- The slot whose bytes are all zero, as `memset` leaves it. -/
def TcpReassemblySlot.zero : TcpReassemblySlot := ⟨false, 0, []⟩

/-- `slot_start + (uint32_t)slot->payload_len` -/
def TcpReassemblySlot.slotEnd (slot : TcpReassemblySlot) : BitVec 32 :=
  slot.sequenceNumber + BitVec.ofNat 32 slot.payload.length

/-- `tcp_connection_t` -/
structure TcpConnection where
  state : TcpConnectionState
  localPort : BitVec 16
  remotePort : BitVec 16
  sendUnacknowledged : BitVec 32
  sendNext : BitVec 32
  receiveNext : BitVec 32
  remoteWindow : BitVec 16
  retransmitTimeoutMs : BitVec 32
  retransmitElapsedMs : BitVec 32
  retransmitCount : BitVec 32
  retransmitLimit : BitVec 32
  lastSegment : TcpSegment
  hasRetransmitSegment : Bool
  reassembly : Fin tcpReassemblySlotCount → TcpReassemblySlot
  reassemblyCount : ℕ
  receiveReady : List UInt8
  pendingFin : Bool
  pendingFinSequence : BitVec 32

/-! ### Sequence comparisons -/

/-- `seq_lt` -/
def seqLt (a b : BitVec 32) : Bool := (a - b).toInt < 0

/-- `seq_le` -/
def seqLe (a b : BitVec 32) : Bool := (a - b).toInt ≤ 0

/-- `seq_gt` -/
def seqGt (a b : BitVec 32) : Bool := (a - b).toInt > 0

/-- `seq_ge` -/
def seqGe (a b : BitVec 32) : Bool := (a - b).toInt ≥ 0

open SerialNumber (dist)

theorem seqLt_iff {a b : BitVec 32} : seqLt a b = true ↔ dist a b < 0 := decide_eq_true_iff

theorem seqLe_iff {a b : BitVec 32} : seqLe a b = true ↔ dist a b ≤ 0 := decide_eq_true_iff

theorem seqGt_iff {a b : BitVec 32} : seqGt a b = true ↔ 0 < dist a b := decide_eq_true_iff

theorem seqGe_iff {a b : BitVec 32} : seqGe a b = true ↔ 0 ≤ dist a b := decide_eq_true_iff

theorem neg_window_le_dist (a b : BitVec 32) : -2 ^ 31 ≤ dist a b := by
  have := SerialNumber.le_dist a b
  omega

end Netstack
