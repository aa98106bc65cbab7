/-
# ARP packets

`include/arp.h` (`arp_packet_t` and the constants) and `arp_parse`, `arp_serialize`,
`arp_build_request` and `arp_build_reply` of `src/arp.c`.

| offset | bytes | field |
| ---: | ---: | --- |
| 0 | 2 | `hardware_type` |
| 2 | 2 | `protocol_type` |
| 4 | 1 | `hardware_addr_len` |
| 5 | 1 | `protocol_addr_len` |
| 6 | 2 | `opcode` |
| 8 | 6 | `sender_mac` |
| 14 | 4 | `sender_ip` |
| 18 | 6 | `target_mac` |
| 24 | 4 | `target_ip` |

The parser and the serializer check the first five fields each for itself, and agree about them
(`arp_codec_laws`).
-/

import Netstack.Checksum
import Netstack.Ethernet.Frame
import Netstack.Library.Format

namespace Netstack

/-- `ARP_ETHERNET` -/
def arpEthernet : BitVec 16 := 0x0001#16

/-- `ARP_PROTOCOL_IPV4` -/
def arpProtocolIpv4 : BitVec 16 := 0x0800#16

/-- `ARP_OPCODE_REQUEST` -/
def arpOpcodeRequest : BitVec 16 := 0x0001#16

/-- `ARP_OPCODE_REPLY` -/
def arpOpcodeReply : BitVec 16 := 0x0002#16

/-- `ARP_HARDWARE_ADDR_LEN` -/
def arpHardwareAddrLen : UInt8 := 6

/-- `ARP_PROTOCOL_ADDR_LEN` -/
def arpProtocolAddrLen : UInt8 := 4

/-- `ARP_PACKET_LEN` -/
def arpPacketLen : ℕ := 28

/-- `ETHERNET_TYPE_ARP` -/
def ethernetTypeArp : BitVec 16 := 0x0806#16

/-- `arp_packet_t` -/
structure ArpPacket where
  hardwareType : BitVec 16
  protocolType : BitVec 16
  hardwareAddrLen : UInt8
  protocolAddrLen : UInt8
  opcode : BitVec 16
  senderMac : MacAddress
  senderIp : Ipv4Address
  targetMac : MacAddress
  targetIp : Ipv4Address
deriving DecidableEq, Repr

/-! ### The source -/

/-- `arp_packet_is_valid` -/
def arpPacketIsValid (packet : ArpPacket) : Bool :=
  if packet.hardwareType ≠ arpEthernet then false
  else if packet.protocolType ≠ arpProtocolIpv4 then false
  else if packet.hardwareAddrLen ≠ arpHardwareAddrLen then false
  else if packet.protocolAddrLen ≠ arpProtocolAddrLen then false
  else if packet.opcode ≠ arpOpcodeRequest ∧ packet.opcode ≠ arpOpcodeReply then false
  else true

/-- The `memcpy` of a hardware address from `data + offset`. -/
def readMacAddress (data : List UInt8) (offset : ℕ) : Checked MacAddress := do
  let first ← readAt data offset
  let second ← readAt data (offset + 1)
  let third ← readAt data (offset + 2)
  let fourth ← readAt data (offset + 3)
  let fifth ← readAt data (offset + 4)
  let sixth ← readAt data (offset + 5)
  return ⟨first, second, third, fourth, fifth, sixth⟩

/-- The `memcpy` of a protocol address from `data + offset`. -/
def readIpv4Address (data : List UInt8) (offset : ℕ) : Checked Ipv4Address := do
  let first ← readAt data offset
  let second ← readAt data (offset + 1)
  let third ← readAt data (offset + 2)
  let fourth ← readAt data (offset + 3)
  return ⟨first, second, third, fourth⟩

/-- `arp_parse`: the packet or the error code. -/
def arpParse (data : List UInt8) : Checked (Except ℤ ArpPacket) :=
  if data.length < arpPacketLen then return .error (-2)
  else do
    let hardwareType ← readU16Be data 0
    let protocolType ← readU16Be data 2
    let hardwareAddrLen ← readAt data 4
    let protocolAddrLen ← readAt data 5
    let opcode ← readU16Be data 6
    if hardwareType ≠ arpEthernet then return .error (-3)
    else if protocolType ≠ arpProtocolIpv4 then return .error (-4)
    else if hardwareAddrLen ≠ arpHardwareAddrLen ∨ protocolAddrLen ≠ arpProtocolAddrLen then
      return .error (-5)
    else if opcode ≠ arpOpcodeRequest ∧ opcode ≠ arpOpcodeReply then return .error (-6)
    else
      let senderMac ← readMacAddress data 8
      let senderIp ← readIpv4Address data 14
      let targetMac ← readMacAddress data 18
      let targetIp ← readIpv4Address data 24
      return .ok { hardwareType, protocolType, hardwareAddrLen, protocolAddrLen, opcode, senderMac,
                   senderIp, targetMac, targetIp }

/-- What `arp_serialize` writes, and where. -/
def ArpPacket.fields (packet : ArpPacket) : List (ℕ × List UInt8) :=
  [(0, writeU16Be packet.hardwareType), (2, writeU16Be packet.protocolType),
    (4, [packet.hardwareAddrLen]), (5, [packet.protocolAddrLen]), (6, writeU16Be packet.opcode),
    (8, packet.senderMac.bytes), (14, packet.senderIp.bytes), (18, packet.targetMac.bytes),
    (24, packet.targetIp.bytes)]

/-- `arp_serialize`: its result, and what it leaves in `buffer`. -/
def arpSerialize (packet : ArpPacket) (buffer : List UInt8) (bufferLen : ℕ) :
    Checked (ℕ × List UInt8) :=
  if bufferLen < arpPacketLen then return (0, buffer)
  else if !arpPacketIsValid packet then return (0, buffer)
  else do
    let buffer ← writeFields buffer packet.fields
    return (arpPacketLen, buffer)

/-- `arp_build_request` -/
def arpBuildRequest (senderMac : MacAddress) (senderIp targetIp : Ipv4Address) : ArpPacket where
  hardwareType := arpEthernet
  protocolType := arpProtocolIpv4
  hardwareAddrLen := arpHardwareAddrLen
  protocolAddrLen := arpProtocolAddrLen
  opcode := arpOpcodeRequest
  senderMac := senderMac
  senderIp := senderIp
  targetMac := ⟨0, 0, 0, 0, 0, 0⟩
  targetIp := targetIp

/-- `arp_build_reply` -/
def arpBuildReply (senderMac : MacAddress) (senderIp : Ipv4Address) (targetMac : MacAddress)
    (targetIp : Ipv4Address) : ArpPacket where
  hardwareType := arpEthernet
  protocolType := arpProtocolIpv4
  hardwareAddrLen := arpHardwareAddrLen
  protocolAddrLen := arpProtocolAddrLen
  opcode := arpOpcodeReply
  senderMac := senderMac
  senderIp := senderIp
  targetMac := targetMac
  targetIp := targetIp

/-! ### Fields -/

/-- The bytes of a packet. -/
def ArpPacket.image (packet : ArpPacket) : List UInt8 := packet.fields.flatMap Prod.snd

theorem ArpPacket.length_image (packet : ArpPacket) : packet.image.length = 28 := rfl

/-- What a packet for Ethernet and IPv4 is. -/
structure ArpPacket.IsValid (packet : ArpPacket) : Prop where
  hardwareType : packet.hardwareType = arpEthernet
  protocolType : packet.protocolType = arpProtocolIpv4
  hardwareAddrLen : packet.hardwareAddrLen = arpHardwareAddrLen
  protocolAddrLen : packet.protocolAddrLen = arpProtocolAddrLen
  opcode : packet.opcode = arpOpcodeRequest ∨ packet.opcode = arpOpcodeReply

/-- The check of the source in the terms of the packet. -/
theorem arpPacketIsValid_iff {packet : ArpPacket} :
    arpPacketIsValid packet = true ↔ packet.IsValid := by
  unfold arpPacketIsValid
  constructor
  · intro h
    split_ifs at h with hhardware hprotocol hhardwareLen hprotocolLen hopcode
    exact ⟨not_not.1 hhardware, not_not.1 hprotocol, not_not.1 hhardwareLen, not_not.1 hprotocolLen,
      by tauto⟩
  · rintro ⟨hhardware, hprotocol, hhardwareLen, hprotocolLen, hopcode⟩
    rw [if_neg (not_not.2 hhardware), if_neg (not_not.2 hprotocol), if_neg (not_not.2 hhardwareLen),
      if_neg (not_not.2 hprotocolLen), if_neg (by tauto)]

section Fields

variable {data : List UInt8} {offset : ℕ}

/-- Reading byte by byte. -/
theorem cons_prefix_drop_iff {c : UInt8} {w : List UInt8} :
    c :: w <+: data.drop offset ↔ readAt data offset = .ok c ∧ w <+: data.drop (offset + 1) := by
  rw [← List.drop_drop]
  cases hdrop : data.drop offset with
  | nil =>
      rw [readAt, ← List.head?_drop, hdrop, List.head?_nil]
      exact iff_of_false (by simp) (by rintro ⟨⟨⟩, -⟩)
  | cons d rest =>
      rw [readAt_of_drop hdrop, List.cons_prefix_cons, Except.ok.injEq, eq_comm]
      rfl

theorem readAt_eq_ok_iff {c : UInt8} : readAt data offset = .ok c ↔ [c] <+: data.drop offset := by
  rw [cons_prefix_drop_iff, and_iff_left List.nil_prefix]

/-- Reading a number is finding its two bytes there. -/
theorem readU16Be_eq_ok_iff {value : BitVec 16} :
    readU16Be data offset = .ok value ↔ writeU16Be value <+: data.drop offset := by
  constructor
  · intro h
    obtain ⟨high, hhigh, h⟩ := bind_eq_ok h
    obtain ⟨low, hlow, h⟩ := bind_eq_ok h
    obtain rfl := Except.ok.inj h
    rw [writeU16Be_u16Be, cons_prefix_drop_iff, ← readAt_eq_ok_iff]
    exact ⟨hhigh, hlow⟩
  · rintro ⟨rest, hrest⟩
    rw [readU16Be_of_drop hrest.symm, u16Be_writeU16Be]

/-- Reading an address is finding its four bytes there. -/
theorem readIpv4Address_eq_ok_iff {address : Ipv4Address} :
    readIpv4Address data offset = .ok address ↔ address.bytes <+: data.drop offset := by
  rw [Ipv4Address.bytes, cons_prefix_drop_iff, cons_prefix_drop_iff, cons_prefix_drop_iff,
    ← readAt_eq_ok_iff]
  constructor
  · intro h
    obtain ⟨first, hfirst, h⟩ := bind_eq_ok h
    obtain ⟨second, hsecond, h⟩ := bind_eq_ok h
    obtain ⟨third, hthird, h⟩ := bind_eq_ok h
    obtain ⟨fourth, hfourth, h⟩ := bind_eq_ok h
    obtain rfl := Except.ok.inj h
    exact ⟨hfirst, hsecond, hthird, hfourth⟩
  · rintro ⟨hfirst, hsecond, hthird, hfourth⟩
    rw [readIpv4Address, hfirst, ok_bind, hsecond, ok_bind, hthird, ok_bind, hfourth]
    rfl

/-- Reading a hardware address is finding its six bytes there. -/
theorem readMacAddress_eq_ok_iff {address : MacAddress} :
    readMacAddress data offset = .ok address ↔ address.bytes <+: data.drop offset := by
  rw [MacAddress.bytes, cons_prefix_drop_iff, cons_prefix_drop_iff, cons_prefix_drop_iff,
    cons_prefix_drop_iff, cons_prefix_drop_iff, ← readAt_eq_ok_iff]
  constructor
  · intro h
    obtain ⟨first, hfirst, h⟩ := bind_eq_ok h
    obtain ⟨second, hsecond, h⟩ := bind_eq_ok h
    obtain ⟨third, hthird, h⟩ := bind_eq_ok h
    obtain ⟨fourth, hfourth, h⟩ := bind_eq_ok h
    obtain ⟨fifth, hfifth, h⟩ := bind_eq_ok h
    obtain ⟨sixth, hsixth, h⟩ := bind_eq_ok h
    obtain rfl := Except.ok.inj h
    exact ⟨hfirst, hsecond, hthird, hfourth, hfifth, hsixth⟩
  · rintro ⟨hfirst, hsecond, hthird, hfourth, hfifth, hsixth⟩
    rw [readMacAddress, hfirst, ok_bind, hsecond, ok_bind, hthird, ok_bind, hfourth, ok_bind,
      hfifth, ok_bind, hsixth]
    rfl

/-- A packet stands at the front of the data when each of its fields is read at its offset. -/
theorem ArpPacket.image_prefix_iff {packet : ArpPacket} :
    packet.image <+: data ↔
      readU16Be data 0 = .ok packet.hardwareType ∧ readU16Be data 2 = .ok packet.protocolType ∧
      readAt data 4 = .ok packet.hardwareAddrLen ∧ readAt data 5 = .ok packet.protocolAddrLen ∧
      readU16Be data 6 = .ok packet.opcode ∧ readMacAddress data 8 = .ok packet.senderMac ∧
      readIpv4Address data 14 = .ok packet.senderIp ∧
      readMacAddress data 18 = .ok packet.targetMac ∧
      readIpv4Address data 24 = .ok packet.targetIp := by
  have himage : packet.image = writeU16Be packet.hardwareType ++ (writeU16Be packet.protocolType ++
      ([packet.hardwareAddrLen] ++ ([packet.protocolAddrLen] ++ (writeU16Be packet.opcode ++
        (packet.senderMac.bytes ++ (packet.senderIp.bytes ++ (packet.targetMac.bytes ++
          packet.targetIp.bytes))))))) := rfl
  simp only [readU16Be_eq_ok_iff, readAt_eq_ok_iff, readMacAddress_eq_ok_iff,
    readIpv4Address_eq_ok_iff]
  conv_lhs => rw [← @List.drop_zero _ data, himage]
  simp only [prefix_append_drop_iff]
  rfl

end Fields

/-! ### Parsing and serializing -/

section Codec

variable {data : List UInt8} {packet : ArpPacket}

/-- **Parsing.**  The accepted byte strings are those that begin with the bytes of a packet for
Ethernet and IPv4, and this packet is what is returned. -/
theorem arpParse_eq_ok_iff :
    arpParse data = .ok (.ok packet) ↔ packet.IsValid ∧ packet.image <+: data := by
  rw [ArpPacket.image_prefix_iff]
  unfold arpParse
  constructor
  · intro h
    split_ifs at h with hshort
    · exact absurd (Except.ok.inj h) (by rintro ⟨⟩)
    obtain ⟨hardwareType, hhardware, h⟩ := bind_eq_ok h
    obtain ⟨protocolType, hprotocol, h⟩ := bind_eq_ok h
    obtain ⟨hardwareAddrLen, hhardwareLen, h⟩ := bind_eq_ok h
    obtain ⟨protocolAddrLen, hprotocolLen, h⟩ := bind_eq_ok h
    obtain ⟨opcode, hopcode, h⟩ := bind_eq_ok h
    split_ifs at h with hbadHardware hbadProtocol hbadLen hbadOpcode
    · exact absurd (Except.ok.inj h) (by rintro ⟨⟩)
    · exact absurd (Except.ok.inj h) (by rintro ⟨⟩)
    · exact absurd (Except.ok.inj h) (by rintro ⟨⟩)
    · exact absurd (Except.ok.inj h) (by rintro ⟨⟩)
    obtain ⟨senderMac, hsenderMac, h⟩ := bind_eq_ok h
    obtain ⟨senderIp, hsenderIp, h⟩ := bind_eq_ok h
    obtain ⟨targetMac, htargetMac, h⟩ := bind_eq_ok h
    obtain ⟨targetIp, htargetIp, h⟩ := bind_eq_ok h
    obtain rfl := Except.ok.inj (Except.ok.inj h)
    obtain ⟨hgoodHardware, hgoodProtocol⟩ := not_or.1 hbadLen
    exact ⟨⟨not_not.1 hbadHardware, not_not.1 hbadProtocol, not_not.1 hgoodHardware,
      not_not.1 hgoodProtocol, by tauto⟩, hhardware, hprotocol, hhardwareLen, hprotocolLen, hopcode,
      hsenderMac, hsenderIp, htargetMac, htargetIp⟩
  · rintro ⟨hvalid, hfields⟩
    have hlength := (ArpPacket.image_prefix_iff.2 hfields).length_le
    obtain ⟨hhardware, hprotocol, hhardwareLen, hprotocolLen, hopcode, hsenderMac, hsenderIp,
      htargetMac, htargetIp⟩ := hfields
    have hshort : ¬data.length < arpPacketLen := not_lt.2 hlength
    have hlen : ¬(packet.hardwareAddrLen ≠ arpHardwareAddrLen ∨
        packet.protocolAddrLen ≠ arpProtocolAddrLen) :=
      not_or.2 ⟨not_not.2 hvalid.hardwareAddrLen, not_not.2 hvalid.protocolAddrLen⟩
    have hopcodes : ¬(packet.opcode ≠ arpOpcodeRequest ∧ packet.opcode ≠ arpOpcodeReply) := by
      have := hvalid.opcode
      tauto
    rw [if_neg hshort, hhardware, ok_bind, hprotocol, ok_bind, hhardwareLen, ok_bind, hprotocolLen,
      ok_bind, hopcode, ok_bind, if_neg (not_not.2 hvalid.hardwareType),
      if_neg (not_not.2 hvalid.protocolType), if_neg hlen, if_neg hopcodes, hsenderMac, ok_bind,
      hsenderIp, ok_bind, htargetMac, ok_bind, htargetIp]
    rfl

theorem ArpPacket.fields_adjacent (packet : ArpPacket) : Adjacent 0 packet.fields := by
  simp [Adjacent, fields, MacAddress.bytes, Ipv4Address.bytes]

/-- **Serializing** writes the bytes of a packet for Ethernet and IPv4 to the front of a buffer that
has room for them, and otherwise nothing. -/
theorem arpSerialize_eq (packet : ArpPacket) (buffer : List UInt8) :
    arpSerialize packet buffer buffer.length =
      .ok (if arpPacketIsValid packet = true ∧ 28 ≤ buffer.length
        then (28, packet.image ++ buffer.drop 28) else (0, buffer)) := by
  unfold arpSerialize
  by_cases hshort : buffer.length < arpPacketLen
  · rw [if_pos hshort, if_neg fun h => absurd h.2 (not_le.2 hshort)]
    rfl
  have hroom : 28 ≤ buffer.length := not_lt.1 hshort
  rw [if_neg hshort]
  by_cases hvalid : arpPacketIsValid packet = true
  · have hwrite := @writeFields_append UInt8 [] buffer packet.fields packet.fields_adjacent hroom
    rw [List.nil_append, List.nil_append] at hwrite
    rw [if_neg (by rw [hvalid]; decide), hwrite, ok_bind, if_pos ⟨hvalid, hroom⟩]
    rfl
  · rw [if_pos (by simpa using hvalid), if_neg fun h => hvalid h.1]
    rfl

/-- A valid packet is written whole into an array of its length. -/
theorem arpSerialize_of_valid (hvalid : packet.IsValid) {buffer : List UInt8}
    (hbuffer : buffer.length = 28) : arpSerialize packet buffer 28 = .ok (28, packet.image) := by
  have hserialize := arpSerialize_eq packet buffer
  rw [hbuffer, if_pos ⟨arpPacketIsValid_iff.2 hvalid, le_rfl⟩, List.drop_of_length_le hbuffer.le,
    List.append_nil] at hserialize
  exact hserialize

/-- Padding behind a packet is left alone. -/
theorem arpParse_image (hvalid : packet.IsValid) (pad : List UInt8) :
    arpParse (packet.image ++ pad) = .ok (.ok packet) :=
  arpParse_eq_ok_iff.2 ⟨hvalid, List.prefix_append ..⟩

/-- **A packet travels in a frame**, with whatever the frame has behind it. -/
theorem ArpPacket.IsValid.travels (hvalid : packet.IsValid) (destination source : MacAddress)
    {buffer : List UInt8} (hbuffer : buffer.length = 28) :
    ∃ out, arpSerialize packet buffer 28 = .ok (28, out) ∧
      ∃ sent : EthernetFrame, sent.destination = destination ∧ sent.source = source ∧
        sent.ethertype = ethernetTypeArp ∧ sent.payload = out ∧
        ∃ wire, ethernetSerialize sent ethernetMaxFrameLen = some wire ∧
          ∀ pad : List UInt8, 28 + pad.length ≤ ethernetMaxPayload →
            ∃ received, ethernetParse (wire ++ pad) = .ok received ∧
              received.ethertype = ethernetTypeArp ∧
              arpParse received.payload = .ok (.ok packet) := by
  have hroom : 14 + packet.image.length ≤ ethernetMaxFrameLen := by
    rw [packet.length_image]
    decide
  refine ⟨packet.image, arpSerialize_of_valid hvalid hbuffer,
    ⟨destination, source, ethernetTypeArp, packet.image, packet.length_image.trans_le (by decide)⟩,
    rfl, rfl, rfl, rfl, _,
    ethernetSerialize_eq_some_iff.2 ⟨hroom, rfl⟩, fun pad hpad => ?_⟩
  have hle : (packet.image ++ pad).length ≤ ethernetMaxPayload := by
    rwa [List.length_append]
  refine ⟨⟨destination, source, ethernetTypeArp, packet.image ++ pad, hle⟩, ?_, rfl,
    arpParse_image hvalid pad⟩
  rw [ethernetParse_eq_ok_iff, EthernetFrame.image, EthernetFrame.image, ← List.append_assoc]

end Codec

/-! ### Agreement -/

/-- What the builders make. -/
inductive IsArpBuilt : ArpPacket → Prop
  | request (senderMac : MacAddress) (senderIp targetIp : Ipv4Address) :
      IsArpBuilt (arpBuildRequest senderMac senderIp targetIp)
  | reply (senderMac : MacAddress) (senderIp : Ipv4Address) (targetMac : MacAddress)
      (targetIp : Ipv4Address) : IsArpBuilt (arpBuildReply senderMac senderIp targetMac targetIp)

theorem IsArpBuilt.isValid {packet : ArpPacket} (h : IsArpBuilt packet) : packet.IsValid := by
  cases h with
  | request => exact ⟨rfl, rfl, rfl, rfl, Or.inl rfl⟩
  | reply => exact ⟨rfl, rfl, rfl, rfl, Or.inr rfl⟩

/-- **The two functions agree.**  What is serialized is what can be parsed, parsing inverts
serializing with any padding, serializing inverts parsing, and what is built travels in frames. -/
theorem arp_codec_laws :
    (∀ (packet : ArpPacket) (buffer : List UInt8), buffer.length = 28 →
      ∃ n out, arpSerialize packet buffer 28 = .ok (n, out) ∧
        (n ≠ 0 ↔ ∃ data, arpParse data = .ok (.ok packet)) ∧
        (n ≠ 0 → n = 28 ∧ ∀ pad, arpParse (out ++ pad) = .ok (.ok packet))) ∧
    (∀ (data : List UInt8) (packet : ArpPacket) (buffer : List UInt8), buffer.length = 28 →
      arpParse data = .ok (.ok packet) →
        arpSerialize packet buffer 28 = .ok (28, data.take 28)) ∧
    ∀ (packet : ArpPacket) (destination source : MacAddress) (buffer : List UInt8),
      IsArpBuilt packet → buffer.length = 28 →
      ∃ out, arpSerialize packet buffer 28 = .ok (28, out) ∧
        ∃ sent : EthernetFrame, sent.destination = destination ∧ sent.source = source ∧
          sent.ethertype = ethernetTypeArp ∧ sent.payload = out ∧
          ∃ wire, ethernetSerialize sent ethernetMaxFrameLen = some wire ∧
            ∀ pad : List UInt8, 28 + pad.length ≤ ethernetMaxPayload →
              ∃ received, ethernetParse (wire ++ pad) = .ok received ∧
                received.ethertype = ethernetTypeArp ∧
                arpParse received.payload = .ok (.ok packet) := by
  refine ⟨fun packet buffer hbuffer => ?_, fun data packet buffer hbuffer h => ?_,
    fun packet destination source buffer hbuilt hbuffer =>
      hbuilt.isValid.travels destination source hbuffer⟩
  · by_cases hvalid : packet.IsValid
    · refine ⟨28, packet.image, arpSerialize_of_valid hvalid hbuffer, ?_, fun _ => ⟨rfl, ?_⟩⟩
      · have hparse := arpParse_image hvalid []
        exact iff_of_true (by decide) ⟨_, hparse⟩
      · exact arpParse_image hvalid
    · have hserialize := arpSerialize_eq packet buffer
      rw [hbuffer, if_neg fun h => hvalid (arpPacketIsValid_iff.1 h.1)] at hserialize
      refine ⟨0, buffer, hserialize, iff_of_false (by decide) ?_, fun hne => absurd rfl hne⟩
      rintro ⟨data, hparse⟩
      exact hvalid (arpParse_eq_ok_iff.1 hparse).1
  · obtain ⟨hvalid, rest, rfl⟩ := arpParse_eq_ok_iff.1 h
    rw [arpSerialize_of_valid hvalid hbuffer, List.take_left' packet.length_image]

/-- Who has `192.168.1.1`? -/
def testRequest : ArpPacket :=
  arpBuildRequest ⟨0xDE, 0xAD, 0xBE, 0xEF, 0x12, 0x34⟩ ⟨192, 168, 1, 50⟩ ⟨192, 168, 1, 1⟩

/-- A request, also with two bytes of padding. -/
theorem arp_codec_laws_testRequest :
    (∃ n out, arpSerialize testRequest (List.replicate 28 0) 28 = .ok (n, out) ∧
      (n ≠ 0 ↔ ∃ data, arpParse data = .ok (.ok testRequest)) ∧
      (n ≠ 0 → n = 28 ∧ ∀ pad, arpParse (out ++ pad) = .ok (.ok testRequest))) ∧
    arpSerialize testRequest (List.replicate 28 0) 28 =
      .ok (28, (testRequest.image ++ [1, 2]).take 28) ∧
    ∃ out, arpSerialize testRequest (List.replicate 28 0) 28 = .ok (28, out) ∧
      ∃ sent : EthernetFrame, sent.destination = ⟨255, 255, 255, 255, 255, 255⟩ ∧
        sent.source = testRequest.senderMac ∧ sent.ethertype = ethernetTypeArp ∧
        sent.payload = out ∧
        ∃ wire, ethernetSerialize sent ethernetMaxFrameLen = some wire ∧
          ∀ pad : List UInt8, 28 + pad.length ≤ ethernetMaxPayload →
            ∃ received, ethernetParse (wire ++ pad) = .ok received ∧
              received.ethertype = ethernetTypeArp ∧
              arpParse received.payload = .ok (.ok testRequest) :=
  ⟨arp_codec_laws.1 testRequest _ List.length_replicate,
    arp_codec_laws.2.1 (testRequest.image ++ [1, 2]) testRequest _ List.length_replicate
      (by decide +kernel),
    arp_codec_laws.2.2 testRequest _ _ _ (.request _ _ _) List.length_replicate⟩

end Netstack
