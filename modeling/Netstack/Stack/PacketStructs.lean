/-
# The serializers in memory

`tcp_serialize`, `udp_serialize`, `ipv4_serialize`, `icmp_serialize` and
`ethernet_serialize` once more, on the structs as they lie in memory: the arrays have their
full lengths, `payload_len` and `options_len` are any values of type `size_t`, and every
access is checked.  A serializer returns the number of bytes and the buffer as it leaves it.
-/

import Netstack.Ethernet.Frame
import Netstack.Icmp.Echo
import Netstack.Ipv4.Packet
import Netstack.Tcp.Codec
import Netstack.Udp.Datagram

namespace Netstack

/-! ### TCP -/

/-- `tcp_segment_t` in memory. -/
structure TcpSegmentStruct where
  sourcePort : BitVec 16
  destinationPort : BitVec 16
  sequenceNumber : BitVec 32
  acknowledgmentNumber : BitVec 32
  dataOffset : BitVec 8
  flags : BitVec 8
  windowSize : BitVec 16
  checksum : BitVec 16
  urgentPointer : BitVec 16
  options : CountedArray UInt8 (tcpMaxHeaderLen - tcpMinHeaderLen)
  payload : CountedArray UInt8 tcpMaxPayloadLen

/-- The segment that the struct holds. -/
def TcpSegmentStruct.view (segment : TcpSegmentStruct) : TcpSegment where
  sourcePort := segment.sourcePort
  destinationPort := segment.destinationPort
  sequenceNumber := segment.sequenceNumber
  acknowledgmentNumber := segment.acknowledgmentNumber
  dataOffset := segment.dataOffset
  flags := segment.flags
  windowSize := segment.windowSize
  checksum := segment.checksum
  urgentPointer := segment.urgentPointer
  options := segment.options.used
  payload := segment.payload.used
  options_le := segment.options.length_used_le
  payload_le := segment.payload.length_used_le

/-- The writes of `tcp_serialize` to the header. -/
def TcpSegmentStruct.headerWrites (segment : TcpSegmentStruct) : List (ℕ × List UInt8) :=
  [(0, writeU16Be segment.sourcePort),
    (2, writeU16Be segment.destinationPort),
    (4, writeU32Be segment.sequenceNumber),
    (8, writeU32Be segment.acknowledgmentNumber),
    (12, [UInt8.ofBitVec (segment.dataOffset <<< 4)]),
    (13, [UInt8.ofBitVec segment.flags]),
    (14, writeU16Be segment.windowSize),
    (16, writeU16Be segment.checksum),
    (18, writeU16Be segment.urgentPointer)]

/-- `tcp_serialize`, on a buffer of `buffer_len` bytes. -/
def tcpSerializeInto (segment : TcpSegmentStruct) (buffer : List UInt8) :
    Checked (ℕ × List UInt8) :=
  if segment.dataOffset < 5#8 ∨ segment.dataOffset > 15#8 then .ok (0, buffer)
  else
    let headerLen := sizeMul segment.dataOffset.toNat 4
    let expectedOptionsLen := sizeSub headerLen tcpMinHeaderLen
    if segment.options.len ≠ expectedOptionsLen then .ok (0, buffer)
    else
      let totalLen := sizeAdd headerLen segment.payload.len
      if totalLen > tcpMaxPacketLen ∨ buffer.length < totalLen then .ok (0, buffer)
      else do
        let buffer ← writeRange buffer 0 (List.replicate totalLen 0)
        let buffer ← writeFields buffer segment.headerWrites
        let buffer ← segment.options.copyTo buffer tcpMinHeaderLen
        let buffer ← segment.payload.copyTo buffer headerLen
        return (totalLen, buffer)

/-! ### UDP -/

/-- `udp_packet_t` in memory. -/
structure UdpPacketStruct where
  sourcePort : BitVec 16
  destinationPort : BitVec 16
  length : BitVec 16
  checksum : BitVec 16
  payload : CountedArray UInt8 udpMaxPayloadLen

/-- The datagram that the struct holds. -/
def UdpPacketStruct.view (packet : UdpPacketStruct) : UdpPacket where
  sourcePort := packet.sourcePort
  destinationPort := packet.destinationPort
  length := packet.length
  checksum := packet.checksum
  payload := packet.payload.used
  payload_le := packet.payload.length_used_le

/-- The writes of `udp_serialize` to the header. -/
def UdpPacketStruct.headerWrites (packet : UdpPacketStruct) (totalLen : ℕ) :
    List (ℕ × List UInt8) :=
  [(0, writeU16Be packet.sourcePort),
    (2, writeU16Be packet.destinationPort),
    (4, writeU16Be (BitVec.ofNat 16 totalLen)),
    (6, writeU16Be packet.checksum)]

/-- `udp_serialize`, on a buffer of `buffer_len` bytes. -/
def udpSerializeInto (packet : UdpPacketStruct) (buffer : List UInt8) :
    Checked (ℕ × List UInt8) :=
  if packet.payload.len > udpMaxPayloadLen then .ok (0, buffer)
  else
    let totalLen := sizeAdd udpHeaderLen packet.payload.len
    if totalLen > udpMaxPacketLen ∨ buffer.length < totalLen then .ok (0, buffer)
    else do
      let buffer ← writeFields buffer (packet.headerWrites totalLen)
      let buffer ← packet.payload.copyTo buffer udpHeaderLen
      return (totalLen, buffer)

/-! ### IPv4 -/

/-- `ipv4_packet_t` in memory. -/
structure Ipv4PacketStruct where
  version : UInt8
  ihl : UInt8
  dscp : UInt8
  ecn : UInt8
  totalLength : BitVec 16
  identification : BitVec 16
  flags : UInt8
  fragmentOffset : BitVec 16
  ttl : UInt8
  protocol : UInt8
  headerChecksum : BitVec 16
  sourceIp : Ipv4Address
  destinationIp : Ipv4Address
  options : CountedArray UInt8 (ipv4MaxHeaderLen - ipv4MinHeaderLen)
  payload : CountedArray UInt8 ipv4MaxPayloadLen

/-- The packet that the struct holds. -/
def Ipv4PacketStruct.view (packet : Ipv4PacketStruct) : Ipv4Packet where
  version := packet.version
  ihl := packet.ihl
  dscp := packet.dscp
  ecn := packet.ecn
  totalLength := packet.totalLength
  identification := packet.identification
  flags := packet.flags
  fragmentOffset := packet.fragmentOffset
  ttl := packet.ttl
  protocol := packet.protocol
  headerChecksum := packet.headerChecksum
  sourceIp := packet.sourceIp
  destinationIp := packet.destinationIp
  options := packet.options.used
  payload := packet.payload.used
  options_le := packet.options.length_used_le
  payload_le := packet.payload.length_used_le

/-- The writes of `ipv4_serialize` to the header. -/
def Ipv4PacketStruct.headerWrites (packet : Ipv4PacketStruct) (totalLen : ℕ) :
    List (ℕ × List UInt8) :=
  [(0, [packet.version <<< 4 ||| packet.ihl &&& 0x0F]),
    (1, [(packet.dscp &&& 0x3F) <<< 2 ||| packet.ecn &&& 0x03]),
    (2, writeU16Be (BitVec.ofNat 16 totalLen)),
    (4, writeU16Be packet.identification),
    (6, writeU16Be ((packet.flags &&& 0x07).toBitVec.setWidth 16 <<< 13 |||
      packet.fragmentOffset &&& 0x1FFF#16)),
    (8, [packet.ttl]),
    (9, [packet.protocol]),
    (10, [0]),
    (11, [0]),
    (12, packet.sourceIp.bytes),
    (16, packet.destinationIp.bytes)]

/-- `ipv4_serialize`, on a buffer of `buffer_len` bytes. -/
def ipv4SerializeInto (packet : Ipv4PacketStruct) (buffer : List UInt8) :
    Checked (ℕ × List UInt8) :=
  if packet.version ≠ ipv4Version then .ok (0, buffer)
  else if packet.ihl < ipv4MinIhl ∨ packet.ihl > 15 then .ok (0, buffer)
  else
    let headerLen := sizeMul packet.ihl.toNat 4
    let expectedOptionsLen := sizeSub headerLen ipv4MinHeaderLen
    if packet.options.len ≠ expectedOptionsLen then .ok (0, buffer)
    else if packet.payload.len > ipv4MaxPayloadLen then .ok (0, buffer)
    else
      let totalLen := sizeAdd headerLen packet.payload.len
      if totalLen > ipv4MaxPacketLen ∨ buffer.length < totalLen then .ok (0, buffer)
      else do
        let buffer ← writeRange buffer 0 (List.replicate totalLen 0)
        let buffer ← writeFields buffer (packet.headerWrites totalLen)
        let buffer ← packet.options.copyTo buffer ipv4MinHeaderLen
        let covered ← readRange buffer 0 headerLen
        let checksum := ipv4Checksum covered
        let buffer ← writeRange buffer 10 (writeU16Be checksum)
        let buffer ← packet.payload.copyTo buffer headerLen
        return (totalLen, buffer)

/-! ### ICMP -/

/-- `icmp_packet_t` in memory. -/
structure IcmpPacketStruct where
  type : UInt8
  code : UInt8
  checksum : BitVec 16
  identifier : BitVec 16
  sequence : BitVec 16
  payload : CountedArray UInt8 icmpMaxPayloadLen

/-- The packet that the struct holds. -/
def IcmpPacketStruct.view (packet : IcmpPacketStruct) : IcmpPacket where
  type := packet.type
  code := packet.code
  checksum := packet.checksum
  identifier := packet.identifier
  sequence := packet.sequence
  payload := packet.payload.used
  payload_le := packet.payload.length_used_le

/-- The writes of `icmp_serialize` to the header. -/
def IcmpPacketStruct.headerWrites (packet : IcmpPacketStruct) : List (ℕ × List UInt8) :=
  [(0, [packet.type]),
    (1, [packet.code]),
    (2, [0]),
    (3, [0]),
    (4, writeU16Be packet.identifier),
    (6, writeU16Be packet.sequence)]

/-- `icmp_serialize`, on a buffer of `buffer_len` bytes. -/
def icmpSerializeInto (packet : IcmpPacketStruct) (buffer : List UInt8) :
    Checked (ℕ × List UInt8) :=
  if packet.type ≠ icmpTypeEchoRequest ∧ packet.type ≠ icmpTypeEchoReply then .ok (0, buffer)
  else if packet.code ≠ icmpCodeEcho then .ok (0, buffer)
  else if packet.payload.len > icmpMaxPayloadLen then .ok (0, buffer)
  else
    let totalLen := sizeAdd icmpEchoHeaderLen packet.payload.len
    if buffer.length < totalLen then .ok (0, buffer)
    else do
      let buffer ← writeRange buffer 0 (List.replicate totalLen 0)
      let buffer ← writeFields buffer packet.headerWrites
      let buffer ← packet.payload.copyTo buffer icmpEchoHeaderLen
      let covered ← readRange buffer 0 totalLen
      let checksum := icmpChecksum covered
      let buffer ← writeRange buffer 2 (writeU16Be checksum)
      return (totalLen, buffer)

/-! ### Ethernet -/

/-- `ethernet_frame_t` in memory. -/
structure EthernetFrameStruct where
  destination : MacAddress
  source : MacAddress
  ethertype : BitVec 16
  payload : CountedArray UInt8 ethernetMaxPayload

/-- The frame that the struct holds. -/
def EthernetFrameStruct.view (frame : EthernetFrameStruct) : EthernetFrame where
  destination := frame.destination
  source := frame.source
  ethertype := frame.ethertype
  payload := frame.payload.used
  payload_le := frame.payload.length_used_le

/-- The writes of `ethernet_serialize` to the header. -/
def EthernetFrameStruct.headerWrites (frame : EthernetFrameStruct) : List (ℕ × List UInt8) :=
  [(0, frame.destination.bytes), (6, frame.source.bytes), (12, writeU16Be frame.ethertype)]

/-- `ethernet_serialize`, on a buffer of `buffer_len` bytes. -/
def ethernetSerializeInto (frame : EthernetFrameStruct) (buffer : List UInt8) :
    Checked (ℕ × List UInt8) :=
  if frame.payload.len > ethernetMaxPayload then .ok (0, buffer)
  else
    let requiredLen := sizeAdd ethernetHeaderLen frame.payload.len
    if buffer.length < requiredLen then .ok (0, buffer)
    else do
      let buffer ← writeFields buffer frame.headerWrites
      let buffer ← frame.payload.copyTo buffer ethernetHeaderLen
      return (requiredLen, buffer)

end Netstack
