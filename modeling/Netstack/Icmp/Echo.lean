/-
# ICMP echo packets

`include/icmp.h` (`icmp_packet_t`, the type, code and length constants) and
`src/icmp.c`: building, serializing and parsing echo requests and replies.
-/

import Netstack.Checksum

namespace Netstack

/-- `ICMP_TYPE_ECHO_REPLY` -/
def icmpTypeEchoReply : UInt8 := 0

/-- `ICMP_TYPE_ECHO_REQUEST` -/
def icmpTypeEchoRequest : UInt8 := 8

/-- `ICMP_CODE_ECHO` -/
def icmpCodeEcho : UInt8 := 0

/-- `ICMP_ECHO_HEADER_LEN` -/
def icmpEchoHeaderLen : ℕ := 8

/-- `ICMP_MAX_PACKET_LEN` -/
def icmpMaxPacketLen : ℕ := 65535

/-- `ICMP_MAX_PAYLOAD_LEN` -/
def icmpMaxPayloadLen : ℕ := icmpMaxPacketLen - icmpEchoHeaderLen

/-- `icmp_packet_t` -/
@[ext]
structure IcmpPacket where
  type : UInt8
  code : UInt8
  checksum : BitVec 16
  identifier : BitVec 16
  sequence : BitVec 16
  payload : List UInt8
  payload_le : payload.length ≤ icmpMaxPayloadLen
deriving DecidableEq, Repr

/-- `icmp_checksum` -/
def icmpChecksum (data : List UInt8) : BitVec 16 := internetChecksum data

/-- `icmp_build_echo`, or `none` where the function returns `-1` and writes nothing. -/
def icmpBuildEcho (type : UInt8) (identifier sequence : BitVec 16) (payload : List UInt8) :
    Option IcmpPacket :=
  if h : payload.length > icmpMaxPayloadLen then none
  else some {
    type, identifier, sequence, payload
    code := icmpCodeEcho
    checksum := 0
    payload_le := Nat.le_of_not_lt h }

/-- `icmp_build_echo_request` -/
def icmpBuildEchoRequest (identifier sequence : BitVec 16) (payload : List UInt8) :
    Option IcmpPacket :=
  icmpBuildEcho icmpTypeEchoRequest identifier sequence payload

/-- `icmp_build_echo_reply` -/
def icmpBuildEchoReply (identifier sequence : BitVec 16) (payload : List UInt8) :
    Option IcmpPacket :=
  icmpBuildEcho icmpTypeEchoReply identifier sequence payload

/-- The bytes of a packet whose checksum field is `checksum`. -/
def IcmpPacket.imageWith (packet : IcmpPacket) (checksum : BitVec 16) : List UInt8 :=
  [packet.type, packet.code] ++ writeU16Be checksum ++
    (writeU16Be packet.identifier ++ writeU16Be packet.sequence ++ packet.payload)

/-- `icmp_serialize`.  The checksum is computed while its field is zero. -/
def icmpSerialize (packet : IcmpPacket) (bufferLen : ℕ) : Option (List UInt8) :=
  if packet.type ≠ icmpTypeEchoRequest ∧ packet.type ≠ icmpTypeEchoReply then none
  else if packet.code ≠ icmpCodeEcho then none
  else if packet.payload.length > icmpMaxPayloadLen then none
  else
    let totalLen := icmpEchoHeaderLen + packet.payload.length
    if bufferLen < totalLen then none
    else
      let buffer := packet.imageWith 0#16
      let checksum := icmpChecksum buffer
      some (writeU16At buffer 2 checksum)

/-- `icmp_parse` -/
def icmpParse (data : List UInt8) : Except ℤ IcmpPacket :=
  if hshort : data.length < icmpEchoHeaderLen then .error (-2)
  else
    have hlen : 8 ≤ data.length := Nat.le_of_not_lt hshort
    let type := data[0]
    let code := data[1]
    if type ≠ icmpTypeEchoRequest ∧ type ≠ icmpTypeEchoReply then .error (-3)
    else if code ≠ icmpCodeEcho then .error (-4)
    else if icmpChecksum data ≠ 0#16 then .error (-5)
    else
      let payloadLen := data.length - icmpEchoHeaderLen
      if hpayload : payloadLen > icmpMaxPayloadLen then .error (-6)
      else .ok {
        type, code
        checksum := u16Be data[2] data[3]
        identifier := u16Be data[4] data[5]
        sequence := u16Be data[6] data[7]
        payload := (data.drop icmpEchoHeaderLen).take payloadLen
        payload_le := (List.length_take_le _ _).trans (Nat.le_of_not_lt hpayload) }

/-! ### Parsing and serializing -/

/-- An echo request or an echo reply. -/
def IcmpPacket.IsEcho (packet : IcmpPacket) : Prop :=
  (packet.type = icmpTypeEchoRequest ∨ packet.type = icmpTypeEchoReply) ∧
    packet.code = icmpCodeEcho

theorem IcmpPacket.length_imageWith (packet : IcmpPacket) (checksum : BitVec 16) :
    (packet.imageWith checksum).length = 8 + packet.payload.length := by
  simp only [imageWith, List.length_append, length_writeU16Be, List.length_cons, List.length_nil]
  omega

/-- **Parsing.**  The accepted byte strings are those of echo requests and replies whose
checksum is right, and the packet is what is returned. -/
theorem icmpParse_eq_ok_iff {data : List UInt8} {packet : IcmpPacket} :
    icmpParse data = .ok packet ↔
      packet.IsEcho ∧ icmpChecksum data = 0#16 ∧ data = packet.imageWith packet.checksum := by
  constructor
  · intro h
    unfold icmpParse at h
    dsimp only at h
    split_ifs at h with hshort htype hcode hchecksum hpayload
    have hlen : 8 ≤ data.length := Nat.le_of_not_lt hshort
    obtain rfl := Except.ok.inj h
    refine ⟨⟨?_, not_not.1 hcode⟩, not_not.1 hchecksum, ?_⟩
    · tauto
    · have hpayload : (data.drop 8).take (data.length - 8) = data.drop 8 :=
        List.take_of_length_le (by rw [List.length_drop])
      calc data = data.drop 0 := rfl
        _ = data[0] :: data[1] :: data[2] :: data[3] :: data[4] :: data[5] :: data[6] ::
              data[7] :: data.drop 8 := drop_eq_cons_eight (by omega)
        _ = _ := by
          simp only [IcmpPacket.imageWith, writeU16Be_u16Be, icmpEchoHeaderLen, hpayload,
            List.cons_append, List.nil_append]
  · rintro ⟨⟨htype, hcode⟩, hchecksum, hdata⟩
    have hlen : data.length = 8 + packet.payload.length := by
      rw [hdata, packet.length_imageWith]
    have hshort : ¬data.length < icmpEchoHeaderLen := by
      unfold icmpEchoHeaderLen
      omega
    have hdiff : data.length - icmpEchoHeaderLen = packet.payload.length := by
      unfold icmpEchoHeaderLen
      omega
    have hpayload : ¬data.length - icmpEchoHeaderLen > icmpMaxPayloadLen := by
      rw [hdiff]
      exact Nat.not_lt_of_le packet.payload_le
    have htype' : data[0] = packet.type := by
      subst hdata
      rfl
    have hcode' : data[1] = packet.code := by
      subst hdata
      rfl
    unfold icmpParse
    rw [dif_neg hshort]
    simp only [htype', hcode']
    rw [if_neg (by tauto), if_neg (not_not.2 hcode), if_neg (not_not.2 hchecksum),
      dif_neg hpayload]
    subst hdata
    refine congrArg Except.ok (IcmpPacket.ext rfl rfl (u16Be_writeU16Be _) (u16Be_writeU16Be _)
      (u16Be_writeU16Be _) ?_)
    change packet.payload.take
      ((packet.imageWith packet.checksum).length - icmpEchoHeaderLen) = packet.payload
    rw [hdiff, List.take_length]

/-- The checksum that `icmp_serialize` writes. -/
def IcmpPacket.wireChecksum (packet : IcmpPacket) : BitVec 16 :=
  icmpChecksum (packet.imageWith 0#16)

/-- **Serialization.** Echo requests and replies that fit are written with their checksum, and
everything else is refused. -/
theorem icmpSerialize_eq_some_iff {packet : IcmpPacket} {bufferLen : ℕ} {out : List UInt8} :
    icmpSerialize packet bufferLen = some out ↔ packet.IsEcho ∧
      8 + packet.payload.length ≤ bufferLen ∧ out = packet.imageWith packet.wireChecksum := by
  have hle : ¬packet.payload.length > icmpMaxPayloadLen := Nat.not_lt_of_le packet.payload_le
  have htype : ¬(packet.type ≠ icmpTypeEchoRequest ∧ packet.type ≠ icmpTypeEchoReply) ↔
      packet.type = icmpTypeEchoRequest ∨ packet.type = icmpTypeEchoReply := by tauto
  have hwrite : writeU16At (packet.imageWith 0#16) 2 packet.wireChecksum =
      packet.imageWith packet.wireChecksum := writeU16At_append rfl 0#16 _ _
  unfold icmpSerialize IcmpPacket.IsEcho
  dsimp only
  rw [Option.ite_none_left_eq_some, htype, Option.ite_none_left_eq_some, not_not, if_neg hle,
    Option.ite_none_left_eq_some, Nat.not_lt, Option.some.injEq, ← IcmpPacket.wireChecksum, hwrite,
    eq_comm (b := out), and_assoc]
  rfl

/-- **What is sent has the checksum zero.** -/
theorem icmpChecksum_icmpSerialize {packet : IcmpPacket} {bufferLen : ℕ} {out : List UInt8}
    (h : icmpSerialize packet bufferLen = some out) : icmpChecksum out = 0#16 := by
  obtain ⟨-, -, rfl⟩ := icmpSerialize_eq_some_iff.1 h
  have hsum := @wordSum_field [packet.type, packet.code] ⟨1, rfl⟩ packet.wireChecksum
    (writeU16Be packet.identifier ++ writeU16Be packet.sequence ++ packet.payload)
  have hbalanced := balanced_internetChecksum (packet.imageWith 0#16)
  refine internetChecksum_eq_zero_iff.2 ?_
  rw [IcmpPacket.imageWith, hsum]
  exact hbalanced

/-- **Round trip.**  What is serialized is parsed to the packet with the checksum that was
written. -/
theorem icmpParse_icmpSerialize {packet : IcmpPacket} {bufferLen : ℕ} {out : List UInt8}
    (h : icmpSerialize packet bufferLen = some out) :
    icmpParse out = .ok { packet with checksum := packet.wireChecksum } := by
  have hzero := icmpChecksum_icmpSerialize h
  obtain ⟨hecho, -, rfl⟩ := icmpSerialize_eq_some_iff.1 h
  exact icmpParse_eq_ok_iff.2 ⟨hecho, hzero, rfl⟩

/-- A replaced word is detected in what had the checksum zero. -/
theorem Tampered.icmpParse_error {i : ℕ} {data data' : List UInt8} (h : Tampered i data data')
    (hzero : icmpChecksum data = 0#16) : ∃ code, icmpParse data' = .error code := by
  cases hparse : icmpParse data' with
  | error code => exact ⟨code, rfl⟩
  | ok packet =>
      obtain ⟨-, hzero', -⟩ := icmpParse_eq_ok_iff.1 hparse
      exact absurd hzero' (h.internetChecksum_ne_zero hzero)

/-! ### The inverse laws -/

/-- The checksum field. -/
def icmpChecksumField (data : List UInt8) : BitVec 16 := u16Be (data.getD 2 0) (data.getD 3 0)

/-- The bytes outside the checksum field. -/
def outsideChecksum (data : List UInt8) : List UInt8 := data.take 2 ++ data.drop 4

theorem IcmpPacket.icmpChecksumField_imageWith (packet : IcmpPacket) (checksum : BitVec 16) :
    icmpChecksumField (packet.imageWith checksum) = checksum := u16Be_writeU16Be checksum

theorem IcmpPacket.wordSum_imageWith (packet : IcmpPacket) (checksum : BitVec 16) :
    wordSum (packet.imageWith checksum) = wordSum (packet.imageWith 0#16) + checksum.toNat :=
  @wordSum_field [packet.type, packet.code] ⟨1, rfl⟩ checksum _

/-- The sum with an empty checksum field is zero when there is nothing but zeros around it. -/
theorem IcmpPacket.wordSum_ne_zero_iff (packet : IcmpPacket) (checksum : BitVec 16) :
    wordSum (packet.imageWith 0#16) ≠ 0 ↔
      ∃ b ∈ outsideChecksum (packet.imageWith checksum), b ≠ 0 := by
  have hmem : ∀ b : UInt8, b ∈ packet.imageWith 0#16 ↔
      b = 0 ∨ b ∈ outsideChecksum (packet.imageWith checksum) := by
    intro b
    have hzero : writeU16Be 0#16 = [0, 0] := rfl
    have houtside : outsideChecksum (packet.imageWith checksum) = [packet.type, packet.code] ++
        (writeU16Be packet.identifier ++ writeU16Be packet.sequence ++ packet.payload) := rfl
    rw [houtside, imageWith, hzero]
    simp only [List.mem_append, List.mem_cons, List.not_mem_nil, or_false]
    tauto
  rw [Ne, wordSum_eq_zero_iff, not_forall]
  constructor
  · rintro ⟨b, hb⟩
    obtain ⟨hb, hne⟩ := Classical.not_imp.1 hb
    exact ⟨b, ((hmem b).1 hb).resolve_left hne, hne⟩
  · rintro ⟨b, hb, hne⟩
    exact ⟨b, Classical.not_imp.2 ⟨(hmem b).2 (.inr hb), hne⟩⟩

/-- **Serializing inverts parsing**, up to the representation of zero. -/
theorem icmpSerialize_of_icmpParse {data : List UInt8} {packet : IcmpPacket}
    (h : icmpParse data = .ok packet) {bufferLen : ℕ} (hroom : data.length ≤ bufferLen) :
    icmpSerialize packet bufferLen =
      if icmpChecksumField data = 0xFFFF#16 ∧ ∃ b ∈ outsideChecksum data, b ≠ 0
      then some (writeU16At data 2 0x0000#16) else some data := by
  obtain ⟨hecho, hchecksum, rfl⟩ := icmpParse_eq_ok_iff.1 h
  have hbalanced := internetChecksum_eq_zero_iff.1 hchecksum
  rw [packet.wordSum_imageWith] at hbalanced
  have hwire : packet.wireChecksum =
      if packet.checksum = 0xFFFF#16 ∧ wordSum (packet.imageWith 0#16) ≠ 0 then 0x0000#16
      else packet.checksum := internetChecksum_of_balanced hbalanced
  rw [packet.length_imageWith] at hroom
  have hserialize : icmpSerialize packet bufferLen = some (packet.imageWith packet.wireChecksum) :=
    icmpSerialize_eq_some_iff.2 ⟨hecho, hroom, rfl⟩
  rw [hserialize, hwire, packet.icmpChecksumField_imageWith]
  simp only [packet.wordSum_ne_zero_iff packet.checksum]
  split_ifs with hcase
  · exact congrArg some (writeU16At_append rfl packet.checksum 0x0000#16 _).symm
  · rfl

/-- `icmp_parse` and `icmp_serialize` invert each other. -/
theorem icmp_codec_laws :
    (∀ (packet : IcmpPacket) (bufferLen : ℕ), packet.IsEcho →
      8 + packet.payload.length ≤ bufferLen →
      ∃ out, icmpSerialize packet bufferLen = some out ∧
        out.length = 8 + packet.payload.length ∧
        icmpParse out = .ok { packet with checksum := icmpChecksumField out }) ∧
    ∀ (data : List UInt8) (packet : IcmpPacket) (bufferLen : ℕ), icmpParse data = .ok packet →
      data.length ≤ bufferLen → icmpSerialize packet bufferLen =
        if icmpChecksumField data = 0xFFFF#16 ∧ ∃ b ∈ outsideChecksum data, b ≠ 0
        then some (writeU16At data 2 0x0000#16) else some data := by
  refine ⟨fun packet bufferLen hecho hroom => ?_,
    fun data packet bufferLen h hroom => icmpSerialize_of_icmpParse h hroom⟩
  have hserialize := icmpSerialize_eq_some_iff.2 ⟨hecho, hroom, rfl⟩
  refine ⟨_, hserialize, packet.length_imageWith _, ?_⟩
  rw [packet.icmpChecksumField_imageWith]
  exact icmpParse_icmpSerialize hserialize

/-- An echo reply of nothing but zeros, whose only checksum is `0xFFFF`. -/
def zeroReply : IcmpPacket where
  type := icmpTypeEchoReply
  code := icmpCodeEcho
  checksum := 0xFFFF
  identifier := 0
  sequence := 0
  payload := [0]
  payload_le := by decide

theorem icmp_codec_laws_zeroReply :
    (∃ out, icmpSerialize zeroReply 64 = some out ∧ out.length = 9 ∧
      icmpParse out = .ok { zeroReply with checksum := icmpChecksumField out }) ∧
    icmpSerialize zeroReply 64 =
      if icmpChecksumField [0, 0, 255, 255, 0, 0, 0, 0, 0] = 0xFFFF#16 ∧
        ∃ b ∈ outsideChecksum [0, 0, 255, 255, 0, 0, 0, 0, 0], b ≠ 0
      then some (writeU16At [0, 0, 255, 255, 0, 0, 0, 0, 0] 2 0x0000#16)
      else some [0, 0, 255, 255, 0, 0, 0, 0, 0] :=
  ⟨icmp_codec_laws.1 zeroReply 64 ⟨.inr rfl, rfl⟩ (by decide),
    icmp_codec_laws.2 [0, 0, 255, 255, 0, 0, 0, 0, 0] zeroReply 64 (by decide +kernel) (by decide)⟩

end Netstack
