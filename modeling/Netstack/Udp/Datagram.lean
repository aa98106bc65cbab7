/-
# UDP datagrams

`include/udp.h` (`udp_packet_t`, the length constants) and `src/udp.c`: building,
parsing and serializing a datagram, and its checksum over the IPv4 pseudo-header.
-/

import Netstack.Checksum

namespace Netstack

/-- `UDP_HEADER_LEN` -/
def udpHeaderLen : ℕ := 8

/-- `UDP_MAX_PACKET_LEN` -/
def udpMaxPacketLen : ℕ := 65535

/-- `UDP_MAX_PAYLOAD_LEN` -/
def udpMaxPayloadLen : ℕ := udpMaxPacketLen - udpHeaderLen

/-- `udp_packet_t` -/
@[ext]
structure UdpPacket where
  sourcePort : BitVec 16
  destinationPort : BitVec 16
  length : BitVec 16
  checksum : BitVec 16
  payload : List UInt8
  payload_le : payload.length ≤ udpMaxPayloadLen
deriving DecidableEq, Repr

/-- `udp_parse` -/
def udpParse (data : List UInt8) : Except ℤ UdpPacket :=
  if hshort : data.length < udpHeaderLen then .error (-2)
  else
    have hlen : ¬data.length < 8 := hshort
    let length := u16Be data[4] data[5]
    if length.toNat < udpHeaderLen ∨ length.toNat > data.length then .error (-3)
    else
      let payloadLen := length.toNat - udpHeaderLen
      if hpayload : payloadLen > udpMaxPayloadLen then .error (-4)
      else .ok {
        length
        sourcePort := u16Be data[0] data[1]
        destinationPort := u16Be data[2] data[3]
        checksum := u16Be data[6] data[7]
        payload := (data.drop udpHeaderLen).take payloadLen
        payload_le := (List.length_take_le _ _).trans (Nat.le_of_not_lt hpayload) }

/-- The bytes of a datagram whose length field is `length`. -/
def UdpPacket.imageWith (packet : UdpPacket) (length checksum : BitVec 16) : List UInt8 :=
  writeU16Be packet.sourcePort ++ writeU16Be packet.destinationPort ++ writeU16Be length ++
    writeU16Be checksum ++ packet.payload

/-- `udp_serialize` -/
def udpSerialize (packet : UdpPacket) (bufferLen : ℕ) : Option (List UInt8) :=
  if packet.payload.length > udpMaxPayloadLen then none
  else
    let totalLen := udpHeaderLen + packet.payload.length
    if totalLen > udpMaxPacketLen ∨ bufferLen < totalLen then none
    else some (packet.imageWith (BitVec.ofNat 16 totalLen) packet.checksum)

/-- The words of the pseudo-header, which `udp_checksum_ipv4` and `udp_checksum_ipv4_valid`
add one by one. -/
def udpPseudoSum (source destination : Ipv4Address) (udpLen : ℕ) : BitVec 32 :=
  let sum := checksumAdd 0#32 (u16Be source.first source.second)
  let sum := checksumAdd sum (u16Be source.third source.fourth)
  let sum := checksumAdd sum (u16Be destination.first destination.second)
  let sum := checksumAdd sum (u16Be destination.third destination.fourth)
  let sum := checksumAdd sum 0x0011#16
  checksumAdd sum (BitVec.ofNat 16 udpLen)

/-- `udp_checksum_ipv4` -/
def udpChecksumIpv4 (source destination : Ipv4Address) (udpData : List UInt8) : BitVec 16 :=
  if udpData.length < udpHeaderLen ∨ udpData.length > 65535 then 0#16
  else
    let result :=
      checksumFinish (addBytes (udpPseudoSum source destination udpData.length) udpData)
    if result = 0#16 then 0xFFFF#16 else result

/-- `udp_serialize_ipv4` -/
def udpSerializeIpv4 (packet : UdpPacket) (source destination : Ipv4Address) (bufferLen : ℕ) :
    Option (List UInt8) :=
  match udpSerialize { packet with checksum := 0 } bufferLen with
  | none => none
  | some buffer =>
      let checksum := udpChecksumIpv4 source destination buffer
      if checksum = 0#16 then none else some (writeU16At buffer 6 checksum)

/-- `udp_checksum_ipv4_valid` -/
def udpChecksumIpv4Valid (source destination : Ipv4Address) (udpData : List UInt8) : Bool :=
  if hshort : udpData.length < udpHeaderLen then false
  else
    have hlen : ¬udpData.length < 8 := hshort
    let checksum := u16Be udpData[6] udpData[7]
    if checksum = 0#16 then true
    else checksumFinish (addBytes (udpPseudoSum source destination udpData.length) udpData) = 0#16

/-! ### Parsing and serializing -/

theorem UdpPacket.length_imageWith (packet : UdpPacket) (length checksum : BitVec 16) :
    (packet.imageWith length checksum).length = 8 + packet.payload.length := by
  simp only [imageWith, List.length_append, length_writeU16Be]

theorem UdpPacket.length_payload_le (packet : UdpPacket) : 8 + packet.payload.length ≤ 65535 := by
  have hle : packet.payload.length ≤ 65535 - 8 := packet.payload_le
  omega

/-- **Parsing.**  The accepted byte strings are those that begin with the bytes of a datagram
whose length field is right, and the datagram is what is returned. -/
theorem udpParse_eq_ok_iff {data : List UInt8} {packet : UdpPacket} :
    udpParse data = .ok packet ↔ packet.length.toNat = 8 + packet.payload.length ∧
      packet.imageWith packet.length packet.checksum <+: data := by
  constructor
  · intro h
    unfold udpParse at h
    dsimp only at h
    split_ifs at h with hshort hlength hpayload
    have hlen : 8 ≤ data.length := Nat.le_of_not_lt hshort
    obtain ⟨hmin, hmax⟩ := not_or.1 hlength
    unfold udpHeaderLen at hmin
    obtain rfl := Except.ok.inj h
    dsimp only [udpHeaderLen]
    refine ⟨?_, data.drop (u16Be data[4] data[5]).toNat, ?_⟩
    · rw [List.length_take, List.length_drop]
      omega
    · have hrest : (data.drop 8).take ((u16Be data[4] data[5]).toNat - 8) ++
          data.drop (u16Be data[4] data[5]).toNat = data.drop 8 := by
        have hsplit : (u16Be data[4] data[5]).toNat = 8 + ((u16Be data[4] data[5]).toNat - 8) := by
          omega
        rw [hsplit, Nat.add_sub_cancel_left, ← List.drop_drop, List.take_append_drop]
      calc _ = data[0] :: data[1] :: data[2] :: data[3] :: data[4] :: data[5] :: data[6] ::
              data[7] :: data.drop 8 := by
            simp only [UdpPacket.imageWith, writeU16Be_u16Be, List.cons_append, List.nil_append,
              hrest]
        _ = data.drop 0 := (drop_eq_cons_eight (by omega)).symm
  · rintro ⟨hlength, pad, hdata⟩
    have hlen : 8 + packet.payload.length ≤ data.length := by
      rw [← hdata, List.length_append, packet.length_imageWith]
      exact Nat.le_add_right _ _
    have hfield : u16Be data[4] data[5] = packet.length := by
      subst hdata
      exact u16Be_writeU16Be packet.length
    have hdiff : packet.length.toNat - udpHeaderLen = packet.payload.length := by
      rw [hlength]
      exact Nat.add_sub_cancel_left 8 _
    have hshort : ¬data.length < udpHeaderLen := by
      unfold udpHeaderLen
      omega
    have hrange : ¬(packet.length.toNat < udpHeaderLen ∨ packet.length.toNat > data.length) := by
      unfold udpHeaderLen
      omega
    have hpayload : ¬packet.length.toNat - udpHeaderLen > udpMaxPayloadLen := by
      rw [hdiff]
      exact Nat.not_lt_of_le packet.payload_le
    unfold udpParse
    rw [dif_neg hshort]
    simp only [hfield]
    rw [if_neg hrange, dif_neg hpayload]
    subst hdata
    refine congrArg Except.ok (UdpPacket.ext (u16Be_writeU16Be _) (u16Be_writeU16Be _) rfl
      (u16Be_writeU16Be _) ?_)
    change (packet.payload ++ pad).take (packet.length.toNat - udpHeaderLen) = packet.payload
    rw [hdiff, List.take_left]

/-- **Serialization.** The length field is computed from the payload; what the packet has in it
is not looked at. -/
theorem udpSerialize_eq_some_iff {packet : UdpPacket} {bufferLen : ℕ} {out : List UInt8} :
    udpSerialize packet bufferLen = some out ↔ 8 + packet.payload.length ≤ bufferLen ∧
      out = packet.imageWith (BitVec.ofNat 16 (8 + packet.payload.length)) packet.checksum := by
  have hle : ¬packet.payload.length > udpMaxPayloadLen := Nat.not_lt_of_le packet.payload_le
  have hmax := packet.length_payload_le
  have hroom : ¬(udpHeaderLen + packet.payload.length > udpMaxPacketLen ∨
      bufferLen < udpHeaderLen + packet.payload.length) ↔ 8 + packet.payload.length ≤ bufferLen := by
    unfold udpHeaderLen udpMaxPacketLen
    omega
  unfold udpSerialize
  rw [if_neg hle]
  dsimp only
  rw [Option.ite_none_left_eq_some, hroom, Option.some.injEq, eq_comm (b := out)]
  rfl

/-! ### The checksum -/

/-- The words are those of the pseudo-header. -/
theorem udpPseudoSum_eq (source destination : Ipv4Address) (udpData : List UInt8) :
    addBytes (udpPseudoSum source destination udpData.length) udpData =
      pseudoSum source destination 17 udpData := by
  have hprotocol : u16Be 0 17 = 0x0011#16 := by decide
  simp only [udpPseudoSum, pseudoSum, pseudoHeader, Ipv4Address.bytes, writeU16Be,
    List.cons_append, List.nil_append, addBytes, hprotocol, u16Be_writeU16Be]

theorem udpSum_toNat (source destination : Ipv4Address) (udpData : List UInt8) :
    (addBytes (udpPseudoSum source destination udpData.length) udpData).toNat =
      residue 65535 (covered source destination 17 udpData) := by
  rw [udpPseudoSum_eq, pseudoSum_toNat]

/-- The checksum balances what it is computed from, and zero is not sent. -/
theorem udpChecksumIpv4_spec {source destination : Ipv4Address} {udpData : List UInt8}
    (hmin : 8 ≤ udpData.length) (hmax : udpData.length ≤ 65535) :
    udpChecksumIpv4 source destination udpData ≠ 0#16 ∧
      Balanced 65535 (covered source destination 17 udpData +
        (udpChecksumIpv4 source destination udpData).toNat) := by
  have hrange : ¬(udpData.length < udpHeaderLen ∨ udpData.length > 65535) := by
    unfold udpHeaderLen
    omega
  unfold udpChecksumIpv4
  rw [if_neg hrange]
  refine ⟨?_, balanced_checksumFinish_or (udpSum_toNat source destination udpData)⟩
  dsimp only
  split_ifs with hzero
  · decide
  · exact hzero

/-- The checksum field of a datagram, `read_u16_be(udp_data + 6)`. -/
def udpChecksumField (udpData : List UInt8) : BitVec 16 :=
  u16Be (udpData.getD 6 0) (udpData.getD 7 0)

/-- The field is at the offset 6. -/
theorem udpChecksumField_eq {udpData : List UInt8} (hlen : ¬udpData.length < 8) :
    udpChecksumField udpData = u16Be udpData[6] udpData[7] := by
  rw [udpChecksumField, List.getD_eq_getElem?_getD, List.getD_eq_getElem?_getD,
    List.getElem?_eq_getElem (by omega), List.getElem?_eq_getElem (by omega)]
  rfl

/-- What is valid: a datagram without a checksum, and one whose sum is balanced. -/
theorem udpChecksumIpv4Valid_iff {source destination : Ipv4Address} {udpData : List UInt8} :
    udpChecksumIpv4Valid source destination udpData = true ↔ 8 ≤ udpData.length ∧
      (udpChecksumField udpData = 0#16 ∨
        Balanced 65535 (covered source destination 17 udpData)) := by
  have hfinish := checksumFinish_eq_zero_iff (udpSum_toNat source destination udpData)
  unfold udpChecksumIpv4Valid
  split_ifs with hshort
  · simp only [false_iff, not_and]
    exact fun hlen => absurd hlen (Nat.not_le_of_lt hshort)
  · have hlen : 8 ≤ udpData.length := Nat.le_of_not_lt hshort
    rw [and_iff_right hlen, udpChecksumField_eq hshort, ← hfinish]
    dsimp only
    split_ifs with hzero
    · exact ⟨fun _ => .inl hzero, fun _ => rfl⟩
    · rw [decide_eq_true_iff]
      exact ⟨.inr, fun h => h.resolve_left hzero⟩

/-- The length that `udp_serialize` writes. -/
def UdpPacket.wireLength (packet : UdpPacket) : BitVec 16 :=
  BitVec.ofNat 16 (8 + packet.payload.length)

/-- The checksum that `udp_serialize_ipv4` writes. -/
def UdpPacket.wireChecksum (packet : UdpPacket) (source destination : Ipv4Address) : BitVec 16 :=
  udpChecksumIpv4 source destination (packet.imageWith packet.wireLength 0#16)

/-- The checksum that is written balances the sum, and is not zero. -/
theorem UdpPacket.wireChecksum_spec (packet : UdpPacket) (source destination : Ipv4Address) :
    packet.wireChecksum source destination ≠ 0#16 ∧
      Balanced 65535 (covered source destination 17 (packet.imageWith packet.wireLength 0#16) +
        (packet.wireChecksum source destination).toNat) := by
  have hlen := packet.length_imageWith packet.wireLength 0#16
  have hmax := packet.length_payload_le
  exact udpChecksumIpv4_spec (by omega) (by omega)

/-- **Serialization with a checksum**, which is computed while the field is zero. -/
theorem udpSerializeIpv4_eq_some_iff {packet : UdpPacket} {source destination : Ipv4Address}
    {bufferLen : ℕ} {out : List UInt8} :
    udpSerializeIpv4 packet source destination bufferLen = some out ↔
      8 + packet.payload.length ≤ bufferLen ∧
        out = packet.imageWith packet.wireLength (packet.wireChecksum source destination) := by
  have hwrite : writeU16At (packet.imageWith packet.wireLength 0#16) 6
      (packet.wireChecksum source destination) =
        packet.imageWith packet.wireLength (packet.wireChecksum source destination) :=
    writeU16At_append rfl 0#16 _ packet.payload
  unfold udpSerializeIpv4
  by_cases hfits : 8 + packet.payload.length ≤ bufferLen
  · have hbuffer : udpSerialize { packet with checksum := 0 } bufferLen =
        some (packet.imageWith packet.wireLength 0#16) :=
      udpSerialize_eq_some_iff.2 ⟨hfits, rfl⟩
    have hne := (packet.wireChecksum_spec source destination).1
    rw [hbuffer, and_iff_right hfits, ← hwrite, eq_comm (a := out)]
    dsimp only
    rw [← UdpPacket.wireChecksum, if_neg hne, Option.some.injEq]
  · have hbuffer : udpSerialize { packet with checksum := 0 } bufferLen = none :=
      Option.eq_none_iff_forall_ne_some.2 fun _ h => hfits (udpSerialize_eq_some_iff.1 h).1
    rw [hbuffer]
    simp only [reduceCtorEq, hfits, false_and]

/-- **Round trip.**  What is serialized, followed by any padding, is parsed to the datagram with
the length and the checksum that were written. -/
theorem udpParse_udpSerializeIpv4 {packet : UdpPacket} {source destination : Ipv4Address}
    {bufferLen : ℕ} {out : List UInt8}
    (h : udpSerializeIpv4 packet source destination bufferLen = some out) (pad : List UInt8) :
    udpParse (out ++ pad) = .ok { packet with
      length := packet.wireLength
      checksum := packet.wireChecksum source destination } := by
  obtain ⟨-, rfl⟩ := udpSerializeIpv4_eq_some_iff.1 h
  have hmax := packet.length_payload_le
  refine udpParse_eq_ok_iff.2 ⟨?_, List.prefix_append _ pad⟩
  change packet.wireLength.toNat = 8 + packet.payload.length
  rw [UdpPacket.wireLength, BitVec.toNat_ofNat]
  exact Nat.mod_eq_of_lt (by omega)

/-- **What is sent is valid**, and carries a checksum. -/
theorem udpSerializeIpv4_valid {packet : UdpPacket} {source destination : Ipv4Address}
    {bufferLen : ℕ} {out : List UInt8}
    (h : udpSerializeIpv4 packet source destination bufferLen = some out) :
    udpChecksumIpv4Valid source destination out = true ∧ udpChecksumField out ≠ 0#16 := by
  obtain ⟨-, rfl⟩ := udpSerializeIpv4_eq_some_iff.1 h
  have hlen : ∀ checksum, (packet.imageWith packet.wireLength checksum).length =
      8 + packet.payload.length := packet.length_imageWith packet.wireLength
  obtain ⟨hne, hbalanced⟩ := packet.wireChecksum_spec source destination
  have hcovered : covered source destination 17
      (packet.imageWith packet.wireLength (packet.wireChecksum source destination)) =
        covered source destination 17 (packet.imageWith packet.wireLength 0#16) +
          (packet.wireChecksum source destination).toNat := by
    rw [covered, covered, hlen, hlen, Nat.add_assoc]
    exact congrArg _ (wordSum_field ⟨3, rfl⟩ _ packet.payload)
  refine ⟨udpChecksumIpv4Valid_iff.2 ⟨?_, .inr (hcovered ▸ hbalanced)⟩, ?_⟩
  · rw [hlen]
    exact Nat.le_add_right 8 _
  · change u16Be (UInt8.ofBitVec _) (UInt8.ofBitVec _) ≠ 0#16
    rw [u16Be_writeU16Be]
    exact hne

/-- **A replaced word is detected** in a datagram with a checksum, unless it is the checksum. -/
theorem Tampered.udpChecksumIpv4Valid_eq_false {i : ℕ} {data data' : List UInt8}
    (h : Tampered i data data') {source destination : Ipv4Address}
    (hvalid : udpChecksumIpv4Valid source destination data = true)
    (hfield : udpChecksumField data ≠ 0#16) (hi : i ≠ 6) :
    udpChecksumIpv4Valid source destination data' = false := by
  obtain ⟨m, hm⟩ := h.even
  have hsame : udpChecksumField data' = udpChecksumField data := by
    simp only [udpChecksumField, List.getD_eq_getElem?_getD]
    rw [h.getElem?_eq (by omega) (by omega), h.getElem?_eq (by omega) (by omega)]
  obtain ⟨-, hzero | hbalanced⟩ := udpChecksumIpv4Valid_iff.1 hvalid
  · exact absurd hzero hfield
  · rw [← Bool.not_eq_true, udpChecksumIpv4Valid_iff, hsame]
    rintro ⟨-, hzero | hbalanced'⟩
    · exact hfield hzero
    · exact h.not_balanced_covered hbalanced hbalanced'

end Netstack
