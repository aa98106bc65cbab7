/-
# The IPv4 codec

What `ipv4_parse` accepts and what `ipv4_serialize` writes.  Both are described by the
bytes of a packet: the header with its options, and the payload behind it, which may be
followed by the padding of the link layer.
-/

import Netstack.Ipv4.Packet

namespace Netstack

/-- `header_len` -/
def Ipv4Packet.headerLen (packet : Ipv4Packet) : ℕ := packet.ihl.toNat * 4

/-- What `ipv4_serialize` asks of the header. -/
structure Ipv4Packet.HasHeader (packet : Ipv4Packet) : Prop where
  version_eq : packet.version = ipv4Version
  ihl_ge : 5 ≤ packet.ihl.toNat
  ihl_le : packet.ihl.toNat ≤ 15
  options_eq : packet.options.length = packet.headerLen - 20

/-- Every field fits into its bits. -/
structure Ipv4Packet.FieldsFit (packet : Ipv4Packet) : Prop where
  dscp_lt : packet.dscp.toNat < 64
  ecn_lt : packet.ecn.toNat < 4
  flags_lt : packet.flags.toNat < 8
  fragmentOffset_lt : packet.fragmentOffset.toNat < 8192

/-- The length of a header with its options. -/
theorem Ipv4Packet.length_headerWith (packet : Ipv4Packet) (totalLength checksum : BitVec 16) :
    (packet.headerWith totalLength checksum).length = 20 + packet.options.length := by
  simp only [headerWith, Ipv4Address.bytes, List.length_append, length_writeU16Be,
    List.length_cons, List.length_nil]
  omega

/-- A header that is accepted has the length that its IHL says. -/
theorem Ipv4Packet.HasHeader.length_headerWith {packet : Ipv4Packet} (h : packet.HasHeader)
    (totalLength checksum : BitVec 16) :
    (packet.headerWith totalLength checksum).length = packet.headerLen := by
  have hge := h.ihl_ge
  have hoptions := h.options_eq
  unfold headerLen at *
  rw [packet.length_headerWith]
  omega

/-- What is parsed consists of the bytes of the packet that is returned, and of padding. -/
theorem ipv4Parse_sound {data : List UInt8} {packet : Ipv4Packet}
    (h : ipv4Parse data = .ok packet) :
    packet.HasHeader ∧ packet.FieldsFit ∧
      packet.totalLength.toNat = packet.headerLen + packet.payload.length ∧
      ipv4Checksum (packet.headerWith packet.totalLength packet.headerChecksum) = 0#16 ∧
      packet.headerWith packet.totalLength packet.headerChecksum ++ packet.payload <+: data := by
  unfold ipv4Parse at h
  dsimp only at h
  split_ifs at h with hshort hversion hihl hheader htotal hchecksum hpayload
  have hlen : 20 ≤ data.length := Nat.le_of_not_lt hshort
  obtain ⟨hge, hle⟩ := not_or.1 hihl
  obtain ⟨hmin, hmax⟩ := not_or.1 htotal
  have hge' : 5 ≤ (data[0] &&& 0x0F).toNat := Nat.le_of_not_lt hge
  have hle' : (data[0] &&& 0x0F).toNat ≤ 15 := Nat.le_of_not_lt hle
  obtain ⟨n, hn⟩ : ∃ n, (data[0] &&& 0x0F).toNat * 4 = n + 20 :=
    ⟨(data[0] &&& 0x0F).toNat * 4 - 20, by omega⟩
  have hpacket := Except.ok.inj h
  have hheaderLen : packet.headerLen = n + 20 := by
    rw [← hpacket]
    exact hn
  have hheaderBytes : packet.headerWith packet.totalLength packet.headerChecksum =
      data.take (n + 20) := by
    rw [take_eq_cons_twenty hlen, ← hpacket]
    simp only [Ipv4Packet.headerWith, Ipv4Packet.flagsFragment, nibbles_eq, dscp_ecn_eq,
      flagsFragment_eq, writeU16Be_u16Be, Ipv4Address.bytes, List.cons_append, List.nil_append,
      ipv4MinHeaderLen, hn, Nat.add_sub_cancel]
  have hpayloadBytes : packet.payload =
      (data.drop (n + 20)).take (packet.totalLength.toNat - (n + 20)) := by
    rw [← hpacket, ← hn]
  have htotalLength : packet.totalLength = u16Be data[2] data[3] := by rw [← hpacket]
  rw [hn] at hmin hheader hchecksum
  rw [← htotalLength] at hmin hmax
  refine ⟨⟨?_, ?_, ?_, ?_⟩, ⟨?_, ?_, ?_, ?_⟩, ?_, ?_, ?_⟩
  · rw [← hpacket]
    exact not_not.1 hversion
  · rw [← hpacket]
    exact hge'
  · rw [← hpacket]
    exact hle'
  · rw [hheaderLen, ← hpacket]
    dsimp only [ipv4MinHeaderLen]
    rw [List.length_take, List.length_drop, hn]
    omega
  · have hb := data[1].toNat_lt
    rw [← hpacket]
    simp
    omega
  · rw [← hpacket]
    exact and_mask_toNat_lt data[1] (k := 2) rfl
  · rw [← hpacket]
    exact flags_toNat_lt (u16Be data[6] data[7])
  · rw [← hpacket]
    exact fragmentOffset_toNat_lt (u16Be data[6] data[7])
  · rw [hheaderLen, hpayloadBytes, List.length_take, List.length_drop]
    omega
  · rw [hheaderBytes]
    exact not_not.1 hchecksum
  · rw [hheaderBytes, hpayloadBytes, ← List.take_add]
    exact List.take_prefix _ data

/-- The bytes of a packet are parsed to the packet. -/
theorem ipv4Parse_complete {data : List UInt8} {packet : Ipv4Packet} (hheader : packet.HasHeader)
    (hfields : packet.FieldsFit)
    (htotal : packet.totalLength.toNat = packet.headerLen + packet.payload.length)
    (hchecksum :
      ipv4Checksum (packet.headerWith packet.totalLength packet.headerChecksum) = 0#16)
    (hdata : packet.headerWith packet.totalLength packet.headerChecksum ++ packet.payload <+:
      data) : ipv4Parse data = .ok packet := by
  obtain ⟨pad, hdata⟩ := hdata
  have hge := hheader.ihl_ge
  have hle := hheader.ihl_le
  have hheaderLength :=
    hheader.length_headerWith packet.totalLength packet.headerChecksum
  have hlength : packet.headerLen + packet.payload.length ≤ data.length := by
    rw [← hdata, List.length_append, List.length_append, hheaderLength]
    exact Nat.le_add_right _ _
  have hmin : 20 ≤ packet.headerLen := by
    unfold Ipv4Packet.headerLen
    omega
  have hfirst : data[0] = ipv4Version <<< 4 ||| packet.ihl &&& 0x0F := by
    rw [← hheader.version_eq]
    subst hdata
    rfl
  have hversion : data[0] >>> 4 = ipv4Version := by
    rw [hfirst, version_of_nibbles]
  have hihl : data[0] &&& 0x0F = packet.ihl := by
    rw [hfirst, ihl_of_nibbles]
    exact (and_mask_eq_self_iff (k := 4) rfl).2 (by omega)
  have htotalLength : u16Be data[2] data[3] = packet.totalLength := by
    subst hdata
    exact u16Be_writeU16Be packet.totalLength
  have htake : data.take packet.headerLen =
      packet.headerWith packet.totalLength packet.headerChecksum := by
    rw [← hdata, List.append_assoc, ← hheaderLength, List.take_left]
  have hshort : ¬data.length < ipv4MinHeaderLen := by
    unfold ipv4MinHeaderLen
    omega
  have hrange : ¬(packet.ihl < ipv4MinIhl ∨ packet.ihl > 15) :=
    not_or.2 ⟨Nat.not_lt_of_le hge, Nat.not_lt_of_le hle⟩
  have hfits : ¬(packet.totalLength.toNat < packet.ihl.toNat * 4 ∨
      packet.totalLength.toNat > data.length) := by
    unfold Ipv4Packet.headerLen at *
    omega
  have hdiff : packet.totalLength.toNat - packet.ihl.toNat * 4 = packet.payload.length := by
    rw [htotal]
    exact Nat.add_sub_cancel_left _ _
  have hpayload : ¬packet.totalLength.toNat - packet.ihl.toNat * 4 > ipv4MaxPayloadLen := by
    rw [hdiff]
    exact Nat.not_lt_of_le packet.payload_le
  unfold ipv4Parse
  rw [dif_neg hshort]
  simp only [hversion, hihl, htotalLength]
  rw [if_neg (not_not.2 rfl), dif_neg hrange, if_neg (Nat.not_lt.2 (by omega)), if_neg hfits,
    if_neg (not_not.2 (htake ▸ hchecksum)), dif_neg hpayload]
  have hword : u16Be data[6] data[7] = packet.flagsFragment := by
    subst hdata
    exact u16Be_writeU16Be packet.flagsFragment
  have hoptions : (data.drop 20).take (packet.ihl.toNat * 4 - 20) = packet.options := by
    have hlen : packet.ihl.toNat * 4 - 20 = packet.options.length := hheader.options_eq.symm
    subst hdata
    change (packet.options ++ packet.payload ++ pad).take _ = _
    rw [hlen, List.append_assoc, List.take_left]
  have hrest : (data.drop (packet.ihl.toNat * 4)).take
      (packet.totalLength.toNat - packet.ihl.toNat * 4) = packet.payload := by
    rw [hdiff, ← hdata, List.append_assoc, ← Ipv4Packet.headerLen, ← hheaderLength,
      List.drop_left, List.take_left]
  refine congrArg Except.ok (Ipv4Packet.ext hheader.version_eq.symm rfl ?_ ?_ rfl ?_ ?_ ?_ ?_ ?_
    ?_ ?_ ?_ hoptions hrest)
  · subst hdata
    exact (dscp_of_byte packet.dscp packet.ecn).trans
      ((and_mask_eq_self_iff (k := 6) rfl).2 hfields.dscp_lt)
  · subst hdata
    exact (ecn_of_byte packet.dscp packet.ecn).trans
      ((and_mask_eq_self_iff (k := 2) rfl).2 hfields.ecn_lt)
  · subst hdata
    exact u16Be_writeU16Be packet.identification
  · rw [hword, flags_of_word]
    exact (and_mask_eq_self_iff (k := 3) rfl).2 hfields.flags_lt
  · rw [hword, fragmentOffset_of_word]
    exact and_offsetMask_eq_self hfields.fragmentOffset_lt
  all_goals subst hdata
  · rfl
  · rfl
  · exact u16Be_writeU16Be packet.headerChecksum
  · rfl
  · rfl

/-- **Parsing.**  The accepted byte strings are those that begin with the bytes of a packet whose
length field and header checksum are right, and the packet is what is returned. -/
theorem ipv4Parse_eq_ok_iff {data : List UInt8} {packet : Ipv4Packet} :
    ipv4Parse data = .ok packet ↔ packet.HasHeader ∧ packet.FieldsFit ∧
      packet.totalLength.toNat = packet.headerLen + packet.payload.length ∧
      ipv4Checksum (packet.headerWith packet.totalLength packet.headerChecksum) = 0#16 ∧
      packet.headerWith packet.totalLength packet.headerChecksum ++ packet.payload <+: data :=
  ⟨ipv4Parse_sound, fun ⟨hheader, hfields, htotal, hchecksum, hdata⟩ =>
    ipv4Parse_complete hheader hfields htotal hchecksum hdata⟩

/-- The header of what is parsed: its length is in the first byte, and it has the checksum
zero. -/
theorem ipv4Parse_header {data : List UInt8} {packet : Ipv4Packet}
    (h : ipv4Parse data = .ok packet) :
    packet.headerLen = (data.getD 0 0 &&& 0x0F).toNat * 4 ∧ packet.headerLen ≤ data.length ∧
      ipv4Checksum (data.take packet.headerLen) = 0#16 := by
  obtain ⟨hheader, -, -, hchecksum, rest, hdata⟩ := ipv4Parse_sound h
  have hlen := hheader.length_headerWith packet.totalLength packet.headerChecksum
  have hle := hheader.ihl_le
  refine ⟨?_, ?_, ?_⟩
  · have hfirst : data.getD 0 0 = ipv4Version <<< 4 ||| packet.ihl &&& 0x0F := by
      rw [← hheader.version_eq]
      subst hdata
      rfl
    have hihl : packet.ihl &&& 0x0F = packet.ihl :=
      (and_mask_eq_self_iff (k := 4) rfl).2 (by omega)
    rw [hfirst, ihl_of_nibbles, hihl]
    rfl
  · rw [← hdata, List.length_append, List.length_append, hlen]
    omega
  · rw [← hdata, List.append_assoc, ← hlen, List.take_left]
    exact hchecksum

/-- **A replaced word of the header is detected**, unless it changes the length of the header. -/
theorem Tampered.ipv4Parse_error {i : ℕ} {data data' : List UInt8} (h : Tampered i data data')
    {packet : Ipv4Packet} (hparse : ipv4Parse data = .ok packet) (hi : i < packet.headerLen)
    (hihl : data'.getD 0 0 &&& 0x0F = data.getD 0 0 &&& 0x0F) :
    ∃ code, ipv4Parse data' = .error code := by
  obtain ⟨hheaderLen, hle, hchecksum⟩ := ipv4Parse_header hparse
  have heven : Even packet.headerLen := by
    unfold Ipv4Packet.headerLen
    exact Even.mul_left ⟨2, rfl⟩ _
  cases hparse' : ipv4Parse data' with
  | error code => exact ⟨code, rfl⟩
  | ok packet' =>
      obtain ⟨hheaderLen', -, hchecksum'⟩ := ipv4Parse_header hparse'
      rw [hheaderLen', hihl, ← hheaderLen] at hchecksum'
      exact absurd hchecksum' ((h.take heven hle hi).internetChecksum_ne_zero hchecksum)

/-! ### Serializing -/

/-- The length that `ipv4_serialize` writes. -/
def Ipv4Packet.wireLength (packet : Ipv4Packet) : BitVec 16 :=
  BitVec.ofNat 16 (packet.headerLen + packet.payload.length)

/-- The checksum that `ipv4_serialize` writes. -/
def Ipv4Packet.wireChecksum (packet : Ipv4Packet) : BitVec 16 :=
  ipv4Checksum (packet.headerWith packet.wireLength 0#16)

/-- **Serialization.** The header has to be consistent, and the packet to fit into 65535 bytes
and into the buffer; length and checksum are computed, whatever the packet has in these fields.
-/
theorem ipv4Serialize_eq_some_iff {packet : Ipv4Packet} {bufferLen : ℕ} {out : List UInt8} :
    ipv4Serialize packet bufferLen = some out ↔ packet.HasHeader ∧
      packet.headerLen + packet.payload.length ≤ 65535 ∧
      packet.headerLen + packet.payload.length ≤ bufferLen ∧
      out = packet.headerWith packet.wireLength packet.wireChecksum ++ packet.payload := by
  have hle : ¬packet.payload.length > ipv4MaxPayloadLen := Nat.not_lt_of_le packet.payload_le
  have hihl : ¬(packet.ihl < ipv4MinIhl ∨ packet.ihl > 15) ↔
      5 ≤ packet.ihl.toNat ∧ packet.ihl.toNat ≤ 15 := by
    rw [not_or]
    exact and_congr Nat.not_lt Nat.not_lt
  have hwrite : writeU16At (packet.headerWith packet.wireLength 0#16) 10 packet.wireChecksum =
      packet.headerWith packet.wireLength packet.wireChecksum := writeU16At_append rfl 0#16 _ _
  have hroom : ¬(packet.ihl.toNat * 4 + packet.payload.length > ipv4MaxPacketLen ∨
      bufferLen < packet.ihl.toNat * 4 + packet.payload.length) ↔
        packet.headerLen + packet.payload.length ≤ 65535 ∧
          packet.headerLen + packet.payload.length ≤ bufferLen := by
    rw [not_or]
    exact and_congr Nat.not_lt Nat.not_lt
  unfold ipv4Serialize
  dsimp only
  rw [Option.ite_none_left_eq_some, not_not, Option.ite_none_left_eq_some, hihl,
    Option.ite_none_left_eq_some, not_not, if_neg hle, Option.ite_none_left_eq_some, hroom,
    Option.some.injEq, ← Ipv4Packet.headerLen, ← Ipv4Packet.wireLength, ← Ipv4Packet.wireChecksum,
    hwrite, eq_comm (b := out)]
  constructor
  · rintro ⟨hversion, ⟨hge, hle⟩, hoptions, ⟨hmax, hfits⟩, hout⟩
    exact ⟨⟨hversion, hge, hle, hoptions⟩, hmax, hfits, hout⟩
  · rintro ⟨⟨hversion, hge, hle, hoptions⟩, hmax, hfits, hout⟩
    exact ⟨hversion, ⟨hge, hle⟩, hoptions, ⟨hmax, hfits⟩, hout⟩

/-- **The header that is sent has the checksum zero.** -/
theorem Ipv4Packet.checksum_header (packet : Ipv4Packet) :
    ipv4Checksum (packet.headerWith packet.wireLength packet.wireChecksum) = 0#16 := by
  have hbalanced := balanced_internetChecksum (packet.headerWith packet.wireLength 0#16)
  refine internetChecksum_eq_zero_iff.2 ?_
  rw [headerWith, wordSum_field ⟨5, rfl⟩]
  exact hbalanced

/-- The header that is written passes the check of the parser. -/
theorem ipv4Checksum_ipv4Serialize {packet : Ipv4Packet} {bufferLen : ℕ} {out : List UInt8}
    (h : ipv4Serialize packet bufferLen = some out) :
    ipv4Checksum (out.take packet.headerLen) = 0#16 := by
  obtain ⟨hheader, -, -, rfl⟩ := ipv4Serialize_eq_some_iff.1 h
  rw [← hheader.length_headerWith packet.wireLength packet.wireChecksum, List.take_left]
  exact packet.checksum_header

/-- The length of what is written. -/
theorem length_ipv4Serialize {packet : Ipv4Packet} {bufferLen : ℕ} {out : List UInt8}
    (h : ipv4Serialize packet bufferLen = some out) :
    out.length = packet.headerLen + packet.payload.length := by
  obtain ⟨hheader, -, -, rfl⟩ := ipv4Serialize_eq_some_iff.1 h
  rw [List.length_append, hheader.length_headerWith]

theorem length_ipv4Serialize_le {packet : Ipv4Packet} {bufferLen : ℕ} {out : List UInt8}
    (h : ipv4Serialize packet bufferLen = some out) : out.length ≤ bufferLen := by
  rw [length_ipv4Serialize h]
  exact (ipv4Serialize_eq_some_iff.1 h).2.2.1

/-- **Round trip.**  What is serialized, followed by any padding, is parsed to the packet with the
length and the checksum that were written. -/
theorem ipv4Parse_ipv4Serialize {packet : Ipv4Packet} (hfields : packet.FieldsFit)
    {bufferLen : ℕ} {out : List UInt8} (h : ipv4Serialize packet bufferLen = some out)
    (pad : List UInt8) : ipv4Parse (out ++ pad) = .ok
      { packet with totalLength := packet.wireLength, headerChecksum := packet.wireChecksum } := by
  obtain ⟨hheader, hmax, -, rfl⟩ := ipv4Serialize_eq_some_iff.1 h
  have htotal : packet.wireLength.toNat = packet.headerLen + packet.payload.length := by
    rw [Ipv4Packet.wireLength, BitVec.toNat_ofNat]
    exact Nat.mod_eq_of_lt (by omega)
  exact ipv4Parse_complete ⟨hheader.1, hheader.2, hheader.3, hheader.4⟩
    ⟨hfields.1, hfields.2, hfields.3, hfields.4⟩ htotal packet.checksum_header
    (List.prefix_append _ pad)

/-- What `ipv4_build` returns can be serialized, and its fields fit. -/
theorem ipv4Build_spec {sourceIp destinationIp : Ipv4Address} {protocol ttl : UInt8}
    {payload : List UInt8} {identification : BitVec 16} {packet : Ipv4Packet}
    (h : ipv4Build sourceIp destinationIp protocol payload ttl identification = some packet) :
    packet.HasHeader ∧ packet.FieldsFit ∧ packet.headerLen = 20 ∧ packet.payload = payload ∧
      packet.sourceIp = sourceIp ∧ packet.destinationIp = destinationIp ∧
      packet.protocol = protocol ∧ packet.ttl = ttl ∧
      packet.identification = identification := by
  unfold ipv4Build at h
  split_ifs at h
  obtain rfl := Option.some.inj h
  have hihl : 5 ≤ ipv4MinIhl.toNat ∧ ipv4MinIhl.toNat ≤ 15 := by decide
  have hbyte : (0 : UInt8).toNat < 4 := by decide
  have hflags : ipv4FlagDf.toNat < 8 := by decide
  have hoffset : (0 : BitVec 16).toNat < 8192 := by decide
  exact ⟨⟨rfl, hihl.1, hihl.2, rfl⟩, ⟨hbyte.trans (by decide), hbyte, hflags, hoffset⟩, rfl, rfl, rfl, rfl, rfl,
    rfl, rfl⟩

/-- A payload that is too long is the only reason not to build a packet. -/
theorem ipv4Build_eq_none_iff {sourceIp destinationIp : Ipv4Address} {protocol ttl : UInt8}
    {payload : List UInt8} {identification : BitVec 16} :
    ipv4Build sourceIp destinationIp protocol payload ttl identification = none ↔
      65515 < payload.length := by
  unfold ipv4Build
  split_ifs with h
  · exact ⟨fun _ => h, fun _ => rfl⟩
  · exact ⟨fun hsome => absurd hsome (by simp), fun hlt => absurd hlt h⟩

/-! ### The inverse laws -/

/-- The header checksum field. -/
def headerChecksumField (data : List UInt8) : BitVec 16 := u16Be (data.getD 10 0) (data.getD 11 0)

theorem Ipv4Packet.headerChecksumField_headerWith (packet : Ipv4Packet)
    (totalLength checksum : BitVec 16) (rest : List UInt8) :
    headerChecksumField (packet.headerWith totalLength checksum ++ rest) = checksum :=
  u16Be_writeU16Be checksum

/-- The version keeps the header from being all zeros. -/
theorem Ipv4Packet.HasHeader.wordSum_ne_zero {packet : Ipv4Packet} (h : packet.HasHeader)
    (totalLength checksum : BitVec 16) : wordSum (packet.headerWith totalLength checksum) ≠ 0 := by
  intro hsum
  have hfirst : ipv4Version <<< 4 ||| packet.ihl &&& 0x0F = 0 := by
    refine wordSum_eq_zero_iff.1 hsum _ ?_
    rw [← h.version_eq]
    exact List.mem_cons_self
  have hversion := version_of_nibbles packet.ihl
  rw [hfirst] at hversion
  exact absurd hversion (by decide)

/-- **The other zero is not sent.** -/
theorem Ipv4Packet.HasHeader.wireChecksum_ne {packet : Ipv4Packet} (h : packet.HasHeader) :
    packet.wireChecksum ≠ 0xFFFF#16 := fun heq =>
  h.wordSum_ne_zero packet.wireLength 0#16 (internetChecksum_eq_max_iff.1 heq)

theorem Ipv4Packet.wordSum_headerWith (packet : Ipv4Packet) (totalLength checksum : BitVec 16) :
    wordSum (packet.headerWith totalLength checksum) =
      wordSum (packet.headerWith totalLength 0#16) + checksum.toNat :=
  wordSum_field ⟨5, rfl⟩ checksum _

/-- The checksum of a packet that was received is computed again. -/
theorem Ipv4Packet.HasHeader.wireChecksum_eq {packet : Ipv4Packet} (h : packet.HasHeader)
    (htotal : packet.wireLength = packet.totalLength)
    (hchecksum :
      ipv4Checksum (packet.headerWith packet.totalLength packet.headerChecksum) = 0#16) :
    packet.wireChecksum =
      if packet.headerChecksum = 0xFFFF#16 then 0x0000#16 else packet.headerChecksum := by
  have hbalanced := internetChecksum_eq_zero_iff.1 hchecksum
  rw [packet.wordSum_headerWith] at hbalanced
  have hne := h.wordSum_ne_zero packet.totalLength 0#16
  rw [wireChecksum, htotal]
  refine (internetChecksum_of_balanced hbalanced).trans ?_
  simp only [hne, ne_eq, not_false_eq_true, and_true]

/-- **Serializing inverts parsing**, up to the representation of zero. -/
theorem ipv4Serialize_of_ipv4Parse {data : List UInt8} {packet : Ipv4Packet}
    (h : ipv4Parse data = .ok packet) {bufferLen : ℕ}
    (hroom : packet.totalLength.toNat ≤ bufferLen) :
    ipv4Serialize packet bufferLen =
      if headerChecksumField data = 0xFFFF#16
      then some (writeU16At (data.take packet.totalLength.toNat) 10 0x0000#16)
      else some (data.take packet.totalLength.toNat) := by
  obtain ⟨hheader, -, htotal, hchecksum, hdata⟩ := ipv4Parse_sound h
  have hlen := hheader.length_headerWith packet.totalLength packet.headerChecksum
  have htake : data.take packet.totalLength.toNat =
      packet.headerWith packet.totalLength packet.headerChecksum ++ packet.payload := by
    rw [List.prefix_iff_eq_take.1 hdata, List.length_append, hlen, htotal]
  have hfield : headerChecksumField data = packet.headerChecksum := by
    obtain ⟨rest, rfl⟩ := hdata
    rw [List.append_assoc]
    exact packet.headerChecksumField_headerWith _ _ _
  have hwire : packet.wireLength = packet.totalLength := by
    rw [Ipv4Packet.wireLength, ← htotal, BitVec.ofNat_toNat, BitVec.setWidth_eq]
  have hmax := packet.totalLength.isLt
  have hserialize : ipv4Serialize packet bufferLen =
      some (packet.headerWith packet.totalLength packet.wireChecksum ++ packet.payload) :=
    ipv4Serialize_eq_some_iff.2 ⟨hheader, by omega, by omega, by rw [hwire]⟩
  rw [hserialize, hheader.wireChecksum_eq hwire hchecksum, hfield, htake]
  split_ifs with hzero
  · refine congrArg some ?_
    rw [Ipv4Packet.headerWith, Ipv4Packet.headerWith, List.append_assoc _ _ packet.payload,
      List.append_assoc _ _ packet.payload]
    exact (writeU16At_append rfl packet.headerChecksum 0x0000#16 _).symm
  · rfl

/-- `ipv4_parse` and `ipv4_serialize` invert each other, and `0xFFFF` is not sent. -/
theorem ipv4_codec_laws :
    (∀ (packet : Ipv4Packet) (bufferLen : ℕ) (pad : List UInt8), packet.HasHeader →
      packet.FieldsFit → packet.headerLen + packet.payload.length ≤ 65535 →
      packet.headerLen + packet.payload.length ≤ bufferLen →
      ∃ out, ipv4Serialize packet bufferLen = some out ∧
        out.length = packet.headerLen + packet.payload.length ∧
        ipv4Parse (out ++ pad) = .ok { packet with
          totalLength := BitVec.ofNat 16 out.length
          headerChecksum := headerChecksumField out }) ∧
    (∀ (data : List UInt8) (packet : Ipv4Packet) (bufferLen : ℕ), ipv4Parse data = .ok packet →
      packet.totalLength.toNat ≤ bufferLen →
      ipv4Serialize packet bufferLen =
        if headerChecksumField data = 0xFFFF#16
        then some (writeU16At (data.take packet.totalLength.toNat) 10 0x0000#16)
        else some (data.take packet.totalLength.toNat)) ∧
    ∀ (packet : Ipv4Packet) (bufferLen : ℕ) (out : List UInt8),
      ipv4Serialize packet bufferLen = some out → headerChecksumField out ≠ 0xFFFF#16 := by
  refine ⟨fun packet bufferLen pad hheader hfields hmax hroom => ?_,
    fun data packet bufferLen h hroom => ipv4Serialize_of_ipv4Parse h hroom,
    fun packet bufferLen out h => ?_⟩
  · obtain ⟨out, hout⟩ : ∃ out,
        out = packet.headerWith packet.wireLength packet.wireChecksum ++ packet.payload := ⟨_, rfl⟩
    have hserialize := ipv4Serialize_eq_some_iff.2 ⟨hheader, hmax, hroom, hout⟩
    have hlen := length_ipv4Serialize hserialize
    have hfield : headerChecksumField out = packet.wireChecksum := by
      rw [hout, packet.headerChecksumField_headerWith]
    refine ⟨out, hserialize, hlen, ?_⟩
    rw [hlen, hfield]
    exact ipv4Parse_ipv4Serialize hfields hserialize pad
  · obtain ⟨hheader, -, -, rfl⟩ := ipv4Serialize_eq_some_iff.1 h
    rw [packet.headerChecksumField_headerWith]
    exact hheader.wireChecksum_ne

/-- A packet without payload, whose header checksum was sent as `0xFFFF`. -/
def otherZeroPacket : Ipv4Packet where
  version := 4
  ihl := 5
  dscp := 0
  ecn := 0
  totalLength := 20
  identification := 0x26CF
  flags := 2
  fragmentOffset := 0
  ttl := 64
  protocol := 17
  headerChecksum := 0xFFFF
  sourceIp := ⟨10, 0, 0, 10⟩
  destinationIp := ⟨10, 0, 0, 1⟩
  options := []
  payload := []
  options_le := by decide
  payload_le := by decide

/-- The bytes of the packet and two bytes of padding. -/
def otherZeroBytes : List UInt8 :=
  [69, 0, 0, 20, 38, 207, 64, 0, 64, 17, 255, 255, 10, 0, 0, 10, 10, 0, 0, 1, 7, 7]

theorem ipv4_codec_laws_otherZero :
    (∃ out, ipv4Serialize otherZeroPacket 64 = some out ∧ out.length = 20 ∧
      ipv4Parse (out ++ [7, 7]) = .ok { otherZeroPacket with
        totalLength := BitVec.ofNat 16 out.length
        headerChecksum := headerChecksumField out }) ∧
    (ipv4Serialize otherZeroPacket 64 =
      if headerChecksumField otherZeroBytes = 0xFFFF#16
      then some (writeU16At (otherZeroBytes.take 20) 10 0x0000#16)
      else some (otherZeroBytes.take 20)) ∧
    headerChecksumField (writeU16At (otherZeroBytes.take 20) 10 0x0000#16) ≠ 0xFFFF#16 :=
  ⟨ipv4_codec_laws.1 otherZeroPacket 64 [7, 7] ⟨by decide, by decide, by decide, by decide⟩
      ⟨by decide, by decide, by decide, by decide⟩ (by decide) (by decide),
    ipv4_codec_laws.2.1 otherZeroBytes otherZeroPacket 64 (by decide +kernel) (by decide),
    ipv4_codec_laws.2.2 otherZeroPacket 64 _ (by decide +kernel)⟩

end Netstack
