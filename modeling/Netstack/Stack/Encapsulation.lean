/-
# Encapsulation

A transport message on its way through the stack: `send_tcp_segment` and
`receive_tcp_segment` of `tools/netstack_http.c`, which the other tools repeat for UDP
and ICMP.  The message is serialized, becomes the payload of an IPv4 packet, which
becomes the payload of an Ethernet frame; a received frame is taken apart again in the
opposite order, and the checksum over the pseudo-header is checked on the way.
-/

import Netstack.Ethernet.Frame
import Netstack.Icmp.Echo
import Netstack.Ipv4.Codec
import Netstack.Tcp.Codec
import Netstack.Udp.Datagram

namespace Netstack

/-- A well-formed transport message. -/
inductive Message
  | tcp (segment : TcpSegment) (header : segment.HasHeader)
  | udp (packet : UdpPacket)
  | icmp (packet : IcmpPacket) (echo : packet.IsEcho)

/-- The protocol number of the packet that carries a message. -/
def Message.protocol : Message → UInt8
  | tcp _ _ => ipv4ProtocolTcp
  | udp _ => ipv4ProtocolUdp
  | icmp _ _ => ipv4ProtocolIcmp

/-- The serializer of a message, and the size of the buffer it is given. -/
def Message.serialize (sourceIp destinationIp : Ipv4Address) (bufferLen : ℕ) :
    Message → Option (List UInt8)
  | tcp segment _ => tcpSerializeIpv4 segment sourceIp destinationIp bufferLen
  | udp packet => udpSerializeIpv4 packet sourceIp destinationIp bufferLen
  | icmp packet _ => icmpSerialize packet bufferLen

/-- The number of transport bytes of a message. -/
def Message.wireLen : Message → ℕ
  | tcp segment _ => segment.dataOffset.toNat * 4 + segment.payload.length
  | udp packet => udpHeaderLen + packet.payload.length
  | icmp packet _ => icmpEchoHeaderLen + packet.payload.length

/-- The frame around transport bytes.  The buffers of the packet and of the frame have the sizes
that the source gives them. -/
def encapsulate (destination source : MacAddress) (sourceIp destinationIp : Ipv4Address)
    (protocol ttl : UInt8) (identification : BitVec 16) (transport : List UInt8) :
    Option (List UInt8) :=
  match ipv4Build sourceIp destinationIp protocol transport ttl identification with
  | none => none
  | some ip =>
      match hip : ipv4Serialize ip ethernetMaxPayload with
      | none => none
      | some ipBytes =>
          ethernetSerialize {
            destination, source
            ethertype := ethernetTypeIpv4
            payload := ipBytes
            payload_le := length_ipv4Serialize_le hip } ethernetMaxFrameLen

/-- `send_tcp_segment`, and the same for the other messages: the frame that is handed to the
device. -/
def sendMessage (destination source : MacAddress) (sourceIp destinationIp : Ipv4Address)
    (ttl : UInt8) (identification : BitVec 16) (bufferLen : ℕ) (message : Message) :
    Option (List UInt8) :=
  match message.serialize sourceIp destinationIp bufferLen with
  | none => none
  | some transport =>
      encapsulate destination source sourceIp destinationIp message.protocol ttl identification
        transport

/-- The transport part of `receive_tcp_segment`, and the same for the other messages: the checksum
is checked and the bytes are parsed, and what is returned is the message up to the fields that
its serializer fills in. -/
def Message.ReceivedFrom (sourceIp destinationIp : Ipv4Address) (transport : List UInt8) :
    Message → Prop
  | tcp segment _ => tcpChecksumIpv4Valid sourceIp destinationIp transport = true ∧
      ∃ parsed, tcpParse transport = .ok parsed ∧
        parsed = { segment with checksum := parsed.checksum }
  | udp packet => udpChecksumIpv4Valid sourceIp destinationIp transport = true ∧
      ∃ parsed, udpParse transport = .ok parsed ∧
        parsed = { packet with length := parsed.length, checksum := parsed.checksum }
  | icmp packet _ => ∃ parsed, icmpParse transport = .ok parsed ∧
        parsed = { packet with checksum := parsed.checksum }

variable {destination source : MacAddress} {sourceIp destinationIp : Ipv4Address}
  {protocol ttl : UInt8} {identification : BitVec 16} {bufferLen : ℕ} {message : Message}
  {transport frame : List UInt8}

/-! ### The transport layer -/

/-- A message is serialized when it fits into the buffer and the 16 bits of a length. -/
theorem Message.serialize_isSome_iff :
    (∃ transport, message.serialize sourceIp destinationIp bufferLen = some transport) ↔
      message.wireLen ≤ 65535 ∧ message.wireLen ≤ bufferLen := by
  cases message with
  | tcp segment header =>
      constructor
      · rintro ⟨transport, h⟩
        obtain ⟨-, hmax, hfits, -⟩ := tcpSerializeIpv4_eq_some_iff.1 h
        exact ⟨hmax, hfits⟩
      · rintro ⟨hmax, hfits⟩
        exact ⟨_, tcpSerializeIpv4_eq_some_iff.2 ⟨header, hmax, hfits, rfl⟩⟩
  | udp packet =>
      constructor
      · rintro ⟨transport, h⟩
        exact ⟨packet.length_payload_le, (udpSerializeIpv4_eq_some_iff.1 h).1⟩
      · rintro ⟨-, hfits⟩
        exact ⟨_, udpSerializeIpv4_eq_some_iff.2 ⟨hfits, rfl⟩⟩
  | icmp packet echo =>
      have hmax : 8 + packet.payload.length ≤ 65535 := by
        have hle : packet.payload.length ≤ 65535 - 8 := packet.payload_le
        omega
      constructor
      · rintro ⟨transport, h⟩
        exact ⟨hmax, (icmpSerialize_eq_some_iff.1 h).2.1⟩
      · rintro ⟨-, hfits⟩
        exact ⟨_, icmpSerialize_eq_some_iff.2 ⟨echo, hfits, rfl⟩⟩

/-- All four kinds of messages have the length that the header says. -/
theorem Message.length_serialize
    (h : message.serialize sourceIp destinationIp bufferLen = some transport) :
    transport.length = message.wireLen := by
  cases message with
  | tcp segment header =>
      obtain ⟨-, -, -, rfl⟩ := tcpSerializeIpv4_eq_some_iff.1 h
      exact header.length_imageWith _ _
  | udp packet =>
      obtain ⟨-, rfl⟩ := udpSerializeIpv4_eq_some_iff.1 h
      exact packet.length_imageWith _ _
  | icmp packet echo =>
      obtain ⟨-, -, rfl⟩ := icmpSerialize_eq_some_iff.1 h
      exact packet.length_imageWith _

/-- What a serializer writes is received. -/
theorem Message.receivedFrom_serialize
    (h : message.serialize sourceIp destinationIp bufferLen = some transport) :
    message.ReceivedFrom sourceIp destinationIp transport := by
  cases message with
  | tcp segment header =>
      exact ⟨tcpSerializeIpv4_valid h, _, tcpParse_tcpSerializeIpv4 h, rfl⟩
  | udp packet =>
      have hparse := udpParse_udpSerializeIpv4 h []
      rw [List.append_nil] at hparse
      exact ⟨(udpSerializeIpv4_valid h).1, _, hparse, rfl⟩
  | icmp packet echo =>
      exact ⟨_, icmpParse_icmpSerialize h, rfl⟩

/-! ### The network and link layers -/

/-- The frame around transport bytes, and the packet in it. -/
theorem encapsulate_eq_some
    (h : encapsulate destination source sourceIp destinationIp protocol ttl identification
      transport = some frame) : ∃ ip ipBytes,
      ipv4Build sourceIp destinationIp protocol transport ttl identification = some ip ∧
        ipv4Serialize ip 1500 = some ipBytes ∧
        frame = destination.bytes ++ source.bytes ++ writeU16Be ethernetTypeIpv4 ++ ipBytes := by
  unfold encapsulate at h
  split at h
  · simp at h
  · rename_i ip hbuild
    split at h
    · simp at h
    · rename_i ipBytes hip
      exact ⟨ip, ipBytes, hbuild, hip, (ethernetSerialize_eq_some_iff.1 h).2⟩

/-- A frame has room for 1480 transport bytes. -/
theorem encapsulate_isSome_iff :
    (∃ frame, encapsulate destination source sourceIp destinationIp protocol ttl identification
      transport = some frame) ↔ transport.length ≤ 1480 := by
  constructor
  · rintro ⟨frame, h⟩
    obtain ⟨ip, ipBytes, hbuild, hip, -⟩ := encapsulate_eq_some h
    obtain ⟨-, -, hheaderLen, hpayload, -⟩ := ipv4Build_spec hbuild
    have hlen := length_ipv4Serialize hip
    have hle := length_ipv4Serialize_le hip
    rw [hheaderLen, hpayload] at hlen
    omega
  · intro hlen
    obtain ⟨ip, hbuild⟩ : ∃ ip,
        ipv4Build sourceIp destinationIp protocol transport ttl identification = some ip :=
      Option.ne_none_iff_exists'.1 fun hnone => absurd (ipv4Build_eq_none_iff.1 hnone) (by omega)
    obtain ⟨hheader, -, hheaderLen, hpayload, -⟩ := ipv4Build_spec hbuild
    have hsum : ip.headerLen + ip.payload.length ≤ 1500 := by
      rw [hheaderLen, hpayload]
      omega
    have hip : ∃ ipBytes, ipv4Serialize ip ethernetMaxPayload = some ipBytes :=
      ⟨_, ipv4Serialize_eq_some_iff.2 ⟨hheader, by omega, hsum, rfl⟩⟩
    unfold encapsulate
    rw [hbuild]
    dsimp only
    split
    · rename_i hnone
      rw [hnone] at hip
      simp at hip
    · rename_i ipBytes hsome
      have hroom : 14 + ipBytes.length ≤ ethernetMaxFrameLen :=
        Nat.add_le_add_left (length_ipv4Serialize_le hsome) 14
      exact ⟨_, ethernetSerialize_eq_some_iff.2 ⟨hroom, rfl⟩⟩

/-- The two headers around a transport message have no options: 14 and 20 bytes. -/
theorem length_encapsulate
    (h : encapsulate destination source sourceIp destinationIp protocol ttl identification
      transport = some frame) : frame.length = 34 + transport.length := by
  obtain ⟨ip, ipBytes, hbuild, hip, rfl⟩ := encapsulate_eq_some h
  obtain ⟨-, -, hheaderLen, hpayload, -⟩ := ipv4Build_spec hbuild
  have hlen := length_ipv4Serialize hip
  rw [hheaderLen, hpayload] at hlen
  simp only [List.length_append, length_writeU16Be, MacAddress.bytes, List.length_cons,
    List.length_nil]
  omega

/-- What `ethernet_parse` and `ipv4_parse` make of a frame with padding. -/
theorem parse_encapsulate
    (h : encapsulate destination source sourceIp destinationIp protocol ttl identification
      transport = some frame) {pad : List UInt8} (hpad : (frame ++ pad).length ≤ 1514) :
    ∃ ethernet ip, ethernetParse (frame ++ pad) = .ok ethernet ∧
      ethernet.destination = destination ∧ ethernet.source = source ∧
      ethernet.ethertype = ethernetTypeIpv4 ∧ ipv4Parse ethernet.payload = .ok ip ∧
      ip.sourceIp = sourceIp ∧ ip.destinationIp = destinationIp ∧ ip.protocol = protocol ∧
      ip.ttl = ttl ∧ ip.identification = identification ∧ ip.payload = transport := by
  obtain ⟨ip, ipBytes, hbuild, hip, rfl⟩ := encapsulate_eq_some h
  obtain ⟨-, hfields, -, hpayload, hsource, hdestination, hprotocol, httl, hid⟩ :=
    ipv4Build_spec hbuild
  have hle : (ipBytes ++ pad).length ≤ ethernetMaxPayload := by
    simp only [List.length_append, length_writeU16Be, MacAddress.bytes, List.length_cons,
      List.length_nil] at hpad ⊢
    unfold ethernetMaxPayload
    omega
  refine ⟨⟨destination, source, ethernetTypeIpv4, ipBytes ++ pad, hle⟩, _,
    ethernetParse_eq_ok_iff.2 ?_, rfl, rfl, rfl, ipv4Parse_ipv4Serialize hfields hip pad, hsource,
    hdestination, hprotocol, httl, hid, hpayload⟩
  rw [EthernetFrame.image, List.append_assoc _ ipBytes]

/-! ### The whole way -/

/-- A frame is made in two steps, and both have to succeed. -/
theorem sendMessage_eq_some_iff :
    sendMessage destination source sourceIp destinationIp ttl identification bufferLen message =
        some frame ↔
      ∃ transport, message.serialize sourceIp destinationIp bufferLen = some transport ∧
        encapsulate destination source sourceIp destinationIp message.protocol ttl identification
          transport = some frame := by
  unfold sendMessage
  constructor
  · intro h
    split at h
    · simp at h
    · rename_i transport hserialize
      exact ⟨transport, hserialize, h⟩
  · rintro ⟨transport, hserialize, h⟩
    rw [hserialize]
    exact h

/-- The length of the frame that is handed to the device. -/
theorem length_sendMessage
    (h : sendMessage destination source sourceIp destinationIp ttl identification bufferLen
      message = some frame) : frame.length = 34 + message.wireLen := by
  obtain ⟨transport, hserialize, hframe⟩ := sendMessage_eq_some_iff.1 h
  rw [length_encapsulate hframe, message.length_serialize hserialize]

/-- A message is sent when it fits into the buffer of its serializer and into a frame. -/
theorem sendMessage_isSome_iff :
    (∃ frame, sendMessage destination source sourceIp destinationIp ttl identification bufferLen
      message = some frame) ↔ message.wireLen ≤ bufferLen ∧ message.wireLen ≤ 1480 := by
  constructor
  · rintro ⟨frame, h⟩
    obtain ⟨transport, hserialize, hframe⟩ := sendMessage_eq_some_iff.1 h
    have hfits := (Message.serialize_isSome_iff.1 ⟨transport, hserialize⟩).2
    have hroom := encapsulate_isSome_iff.1 ⟨frame, hframe⟩
    rw [message.length_serialize hserialize] at hroom
    exact ⟨hfits, hroom⟩
  · rintro ⟨hfits, hroom⟩
    obtain ⟨transport, hserialize⟩ : ∃ transport,
        message.serialize sourceIp destinationIp bufferLen = some transport :=
      Message.serialize_isSome_iff.2 ⟨by omega, hfits⟩
    rw [← message.length_serialize hserialize] at hroom
    obtain ⟨frame, hframe⟩ := encapsulate_isSome_iff.2 hroom
    exact ⟨frame, sendMessage_eq_some_iff.2 ⟨transport, hserialize, hframe⟩⟩

/-- **Encapsulation round trip.**  A message yields a frame if and only if its transport bytes fit
into the buffer of the serializer and number at most 1480.  The frame, followed by any padding up
to the longest frame, is parsed on every layer: it carries the same addresses and the same
protocol number, the checksum over the pseudo-header is valid, and the message that is parsed is
the one that was sent, up to the checksum and the UDP length. -/
theorem encapsulation_round_trip (destination source : MacAddress)
    (sourceIp destinationIp : Ipv4Address) (ttl : UInt8) (identification : BitVec 16)
    (bufferLen : ℕ) (message : Message) :
    ((∃ frame, sendMessage destination source sourceIp destinationIp ttl identification bufferLen
        message = some frame) ↔ message.wireLen ≤ bufferLen ∧ message.wireLen ≤ 1480) ∧
    ∀ frame pad, sendMessage destination source sourceIp destinationIp ttl identification bufferLen
        message = some frame → (frame ++ pad).length ≤ 1514 →
      ∃ ethernet ip, ethernetParse (frame ++ pad) = .ok ethernet ∧
        ethernet.destination = destination ∧ ethernet.source = source ∧
        ethernet.ethertype = ethernetTypeIpv4 ∧ ipv4Parse ethernet.payload = .ok ip ∧
        ip.sourceIp = sourceIp ∧ ip.destinationIp = destinationIp ∧
        ip.protocol = message.protocol ∧
        message.ReceivedFrom ip.sourceIp ip.destinationIp ip.payload := by
  refine ⟨sendMessage_isSome_iff, ?_⟩
  intro frame pad h hpad
  obtain ⟨transport, hserialize, hframe⟩ := sendMessage_eq_some_iff.1 h
  obtain ⟨ethernet, ip, hethernet, hdestination, hsource, htype, hip, hsourceIp, hdestinationIp,
    hprotocol, -, -, hpayload⟩ := parse_encapsulate hframe hpad
  refine ⟨ethernet, ip, hethernet, hdestination, hsource, htype, hip, hsourceIp, hdestinationIp,
    hprotocol, ?_⟩
  rw [hsourceIp, hdestinationIp, hpayload]
  exact message.receivedFrom_serialize hserialize

/-- The message of `test_icmp_echo_request_full_stack`. -/
def testEcho : IcmpPacket where
  type := icmpTypeEchoRequest
  code := icmpCodeEcho
  checksum := 0
  identifier := 0x1234#16
  sequence := 1#16
  payload := [0x42, 0x4C, 0x41, 0x43, 0x4B, 0x54, 0x45, 0x52, 0x4D]
  payload_le := by decide

/-- The message of the test, in a frame that is padded to sixty bytes. -/
theorem testEcho_padded : ∃ frame ethernet ip parsed,
    sendMessage ⟨0xAA, 0xBB, 0xCC, 0xDD, 0xEE, 0xFF⟩ ⟨0xDE, 0xAD, 0xBE, 0xEF, 0x12, 0x34⟩
        ⟨192, 168, 1, 50⟩ ⟨192, 168, 1, 1⟩ 64 0x4242#16 1500 (.icmp testEcho ⟨.inl rfl, rfl⟩) =
      some frame ∧
    ethernetParse (frame ++ List.replicate 9 0) = .ok ethernet ∧
    ipv4Parse ethernet.payload = .ok ip ∧ icmpParse ip.payload = .ok parsed ∧
    parsed = { testEcho with checksum := parsed.checksum } := by
  obtain ⟨hsend, hreceive⟩ := encapsulation_round_trip ⟨0xAA, 0xBB, 0xCC, 0xDD, 0xEE, 0xFF⟩
    ⟨0xDE, 0xAD, 0xBE, 0xEF, 0x12, 0x34⟩ ⟨192, 168, 1, 50⟩ ⟨192, 168, 1, 1⟩ 64 0x4242#16 1500
    (.icmp testEcho ⟨.inl rfl, rfl⟩)
  obtain ⟨frame, hframe⟩ := hsend.2 (by decide)
  have hpad : (frame ++ List.replicate 9 0).length ≤ 1514 := by
    rw [List.length_append, length_sendMessage hframe]
    decide
  obtain ⟨ethernet, ip, hethernet, -, -, -, hip, -, -, -, parsed, hparse, hparsed⟩ :=
    hreceive frame _ hframe hpad
  exact ⟨frame, ethernet, ip, parsed, hframe, hethernet, hip, hparse, hparsed⟩

end Netstack
