/-
# TCP segments

`include/tcp.h` (`tcp_segment_t`, the flag and length constants) and `tcp_build`
of `src/tcp.c`.

A segment keeps its two variable-length parts as byte lists, so that
`options_len` and `payload_len` are the lengths of the lists.  The C arrays hold
`TCP_MAX_HEADER_LEN - TCP_MIN_HEADER_LEN` and `TCP_MAX_PAYLOAD_LEN` bytes, and
the two bounds are fields: `tcp_build` and `tcp_parse` return nothing longer.
-/

import Mathlib.Data.Nat.Notation

namespace Netstack

/-- `TCP_MIN_HEADER_LEN` -/
def tcpMinHeaderLen : ℕ := 20

/-- `TCP_MAX_HEADER_LEN` -/
def tcpMaxHeaderLen : ℕ := 60

/-- `TCP_MAX_PACKET_LEN` -/
def tcpMaxPacketLen : ℕ := 65535

/-- `TCP_MAX_PAYLOAD_LEN` -/
def tcpMaxPayloadLen : ℕ := tcpMaxPacketLen - tcpMinHeaderLen

/-- `TCP_FLAG_FIN` -/
def tcpFlagFin : BitVec 8 := 0x01#8

/-- `TCP_FLAG_SYN` -/
def tcpFlagSyn : BitVec 8 := 0x02#8

/-- `TCP_FLAG_RST` -/
def tcpFlagRst : BitVec 8 := 0x04#8

/-- `TCP_FLAG_PSH` -/
def tcpFlagPsh : BitVec 8 := 0x08#8

/-- `TCP_FLAG_ACK` -/
def tcpFlagAck : BitVec 8 := 0x10#8

/-- `tcp_segment_t` -/
structure TcpSegment where
  sourcePort : BitVec 16
  destinationPort : BitVec 16
  sequenceNumber : BitVec 32
  acknowledgmentNumber : BitVec 32
  dataOffset : BitVec 8
  flags : BitVec 8
  windowSize : BitVec 16
  checksum : BitVec 16
  urgentPointer : BitVec 16
  options : List UInt8
  payload : List UInt8
  options_le : options.length ≤ tcpMaxHeaderLen - tcpMinHeaderLen
  payload_le : payload.length ≤ tcpMaxPayloadLen
deriving DecidableEq, Repr

/-- The segment whose bytes are all zero, as `memset` leaves it. -/
def TcpSegment.zero : TcpSegment where
  sourcePort := 0
  destinationPort := 0
  sequenceNumber := 0
  acknowledgmentNumber := 0
  dataOffset := 0
  flags := 0
  windowSize := 0
  checksum := 0
  urgentPointer := 0
  options := []
  payload := []
  options_le := Nat.zero_le _
  payload_le := Nat.zero_le _

/-- `(segment->flags & flag) != 0` -/
def TcpSegment.hasFlag (segment : TcpSegment) (flag : BitVec 8) : Bool :=
  segment.flags &&& flag != 0

/-- The sequence number behind the payload, `sequence_number + (uint32_t)payload_len`. -/
def TcpSegment.payloadEnd (segment : TcpSegment) : BitVec 32 :=
  segment.sequenceNumber + BitVec.ofNat 32 segment.payload.length

theorem TcpSegment.payload_length_lt (segment : TcpSegment) :
    segment.payload.length < 65536 :=
  Nat.lt_of_le_of_lt segment.payload_le (by decide)

/-- `tcp_build`: a segment without options, or `none` where the function returns
`-1` and writes nothing. -/
def tcpBuild (sourcePort destinationPort : BitVec 16)
    (sequenceNumber acknowledgmentNumber : BitVec 32) (flags : BitVec 8)
    (windowSize : BitVec 16) (payload : List UInt8) : Option TcpSegment :=
  if h : tcpMaxPayloadLen < payload.length then none
  else some {
    sourcePort, destinationPort, sequenceNumber, acknowledgmentNumber, flags, windowSize, payload
    dataOffset := 5
    checksum := 0
    urgentPointer := 0
    options := []
    options_le := Nat.zero_le _
    payload_le := Nat.le_of_not_lt h }

/-- What a built segment carries: the arguments, and nothing else. -/
theorem tcpBuild_eq_some {sp dp : BitVec 16} {seq ack : BitVec 32} {flags : BitVec 8}
    {window : BitVec 16} {payload : List UInt8} {segment : TcpSegment}
    (h : tcpBuild sp dp seq ack flags window payload = some segment) :
    segment.sourcePort = sp ∧ segment.destinationPort = dp ∧ segment.sequenceNumber = seq ∧
      segment.acknowledgmentNumber = ack ∧ segment.flags = flags ∧
      segment.windowSize = window ∧ segment.payload = payload := by
  unfold tcpBuild at h
  split at h
  · simp at h
  · obtain rfl := Option.some.inj h
    exact ⟨rfl, rfl, rfl, rfl, rfl, rfl, rfl⟩

/-- A payload that is too long is the only reason not to build a segment. -/
theorem tcpBuild_eq_none {sp dp : BitVec 16} {seq ack : BitVec 32} {flags : BitVec 8}
    {window : BitVec 16} {payload : List UInt8} :
    tcpBuild sp dp seq ack flags window payload = none ↔ tcpMaxPayloadLen < payload.length := by
  unfold tcpBuild
  split <;> simp_all

end Netstack
