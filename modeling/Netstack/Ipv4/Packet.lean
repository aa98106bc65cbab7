/-
# IPv4 packets

`include/ipv4.h` (`ipv4_packet_t`, the version, header and length constants) and
`ipv4_checksum`, `ipv4_parse`, `ipv4_serialize` and `ipv4_build` of `src/ipv4.c`.
-/

import Mathlib.Algebra.BigOperators.Group.List.Defs
import Mathlib.Tactic.IntervalCases
import Netstack.Checksum

namespace Netstack

/-- `IPV4_VERSION` -/
def ipv4Version : UInt8 := 4

/-- `IPV4_MIN_IHL` -/
def ipv4MinIhl : UInt8 := 5

/-- `IPV4_MIN_HEADER_LEN` -/
def ipv4MinHeaderLen : ℕ := 20

/-- `IPV4_MAX_HEADER_LEN` -/
def ipv4MaxHeaderLen : ℕ := 60

/-- `IPV4_MAX_PACKET_LEN` -/
def ipv4MaxPacketLen : ℕ := 65535

/-- `IPV4_MAX_PAYLOAD_LEN` -/
def ipv4MaxPayloadLen : ℕ := ipv4MaxPacketLen - ipv4MinHeaderLen

/-- `IPV4_PROTOCOL_ICMP` -/
def ipv4ProtocolIcmp : UInt8 := 1

/-- `IPV4_PROTOCOL_TCP` -/
def ipv4ProtocolTcp : UInt8 := 6

/-- `IPV4_PROTOCOL_UDP` -/
def ipv4ProtocolUdp : UInt8 := 17

/-- `IPV4_FLAG_DF` -/
def ipv4FlagDf : UInt8 := 0x02

/-- `ipv4_packet_t` -/
@[ext]
structure Ipv4Packet where
  version : UInt8
  ihl : UInt8
  dscp : UInt8
  ecn : UInt8
  totalLength : BitVec 16
  identification : BitVec 16
  flags : UInt8
  fragmentOffset : BitVec 16
  ttl : UInt8
  protocol : UInt8
  headerChecksum : BitVec 16
  sourceIp : Ipv4Address
  destinationIp : Ipv4Address
  options : List UInt8
  payload : List UInt8
  options_le : options.length ≤ ipv4MaxHeaderLen - ipv4MinHeaderLen
  payload_le : payload.length ≤ ipv4MaxPayloadLen
deriving DecidableEq, Repr

/-- `ipv4_checksum` -/
def ipv4Checksum (data : List UInt8) : BitVec 16 := internetChecksum data

/-- The options that a header of `ihl` words leaves room for. -/
theorem length_options_le {ihl : UInt8} (h : ¬(ihl < ipv4MinIhl ∨ ihl > 15)) (data : List UInt8) :
    (data.take (ihl.toNat * 4 - ipv4MinHeaderLen)).length ≤
      ipv4MaxHeaderLen - ipv4MinHeaderLen := by
  have hle : ¬15 < ihl.toNat := (not_or.1 h).2
  have htake := List.length_take_le (ihl.toNat * 4 - ipv4MinHeaderLen) data
  unfold ipv4MinHeaderLen ipv4MaxHeaderLen at *
  omega

/-- `ipv4_parse` -/
def ipv4Parse (data : List UInt8) : Except ℤ Ipv4Packet :=
  if hshort : data.length < ipv4MinHeaderLen then .error (-2)
  else
    have hlen : ¬data.length < 20 := hshort
    let version := data[0] >>> 4
    let ihl := data[0] &&& 0x0F
    if version ≠ ipv4Version then .error (-3)
    else if hihl : ihl < ipv4MinIhl ∨ ihl > 15 then .error (-4)
    else
      let headerLen := ihl.toNat * 4
      if data.length < headerLen then .error (-4)
      else
        let totalLength := u16Be data[2] data[3]
        if totalLength.toNat < headerLen ∨ totalLength.toNat > data.length then .error (-5)
        else if ipv4Checksum (data.take headerLen) ≠ 0#16 then .error (-6)
        else
          let payloadLen := totalLength.toNat - headerLen
          if hpayload : payloadLen > ipv4MaxPayloadLen then .error (-7)
          else
            let flagsFragment := u16Be data[6] data[7]
            .ok {
              version, ihl, totalLength
              dscp := data[1] >>> 2
              ecn := data[1] &&& 0x03
              identification := u16Be data[4] data[5]
              flags := UInt8.ofBitVec ((flagsFragment >>> 13 &&& 0x07#16).setWidth 8)
              fragmentOffset := flagsFragment &&& 0x1FFF#16
              ttl := data[8]
              protocol := data[9]
              headerChecksum := u16Be data[10] data[11]
              sourceIp := ⟨data[12], data[13], data[14], data[15]⟩
              destinationIp := ⟨data[16], data[17], data[18], data[19]⟩
              options := (data.drop ipv4MinHeaderLen).take (headerLen - ipv4MinHeaderLen)
              payload := (data.drop headerLen).take payloadLen
              options_le := length_options_le hihl _
              payload_le := (List.length_take_le _ _).trans (Nat.le_of_not_lt hpayload) }

/-- The flags and the fragment offset share a word. -/
def Ipv4Packet.flagsFragment (packet : Ipv4Packet) : BitVec 16 :=
  (packet.flags &&& 0x07).toBitVec.setWidth 16 <<< 13 ||| packet.fragmentOffset &&& 0x1FFF#16

/-- The bytes of the header, with its options, whose length and checksum fields are the given
ones. -/
def Ipv4Packet.headerWith (packet : Ipv4Packet) (totalLength checksum : BitVec 16) : List UInt8 :=
  [packet.version <<< 4 ||| packet.ihl &&& 0x0F,
      (packet.dscp &&& 0x3F) <<< 2 ||| packet.ecn &&& 0x03] ++
    writeU16Be totalLength ++ writeU16Be packet.identification ++
    writeU16Be packet.flagsFragment ++ [packet.ttl, packet.protocol] ++ writeU16Be checksum ++
    (packet.sourceIp.bytes ++ packet.destinationIp.bytes ++ packet.options)

/-- `ipv4_serialize`.  The checksum is computed while its field is zero, and over the header
alone. -/
def ipv4Serialize (packet : Ipv4Packet) (bufferLen : ℕ) : Option (List UInt8) :=
  if packet.version ≠ ipv4Version then none
  else if packet.ihl < ipv4MinIhl ∨ packet.ihl > 15 then none
  else
    let headerLen := packet.ihl.toNat * 4
    let expectedOptionsLen := headerLen - ipv4MinHeaderLen
    if packet.options.length ≠ expectedOptionsLen then none
    else if packet.payload.length > ipv4MaxPayloadLen then none
    else
      let totalLen := headerLen + packet.payload.length
      if totalLen > ipv4MaxPacketLen ∨ bufferLen < totalLen then none
      else
        let header := packet.headerWith (BitVec.ofNat 16 totalLen) 0#16
        let checksum := ipv4Checksum header
        some (writeU16At header 10 checksum ++ packet.payload)

/-- `ipv4_build`, or `none` where the function returns `-1` and writes nothing. -/
def ipv4Build (sourceIp destinationIp : Ipv4Address) (protocol : UInt8) (payload : List UInt8)
    (ttl : UInt8) (identification : BitVec 16) : Option Ipv4Packet :=
  if h : payload.length > ipv4MaxPayloadLen then none
  else some {
    sourceIp, destinationIp, protocol, payload, ttl, identification
    version := ipv4Version
    ihl := ipv4MinIhl
    dscp := 0
    ecn := 0
    totalLength := BitVec.ofNat 16 (ipv4MinHeaderLen + payload.length)
    flags := ipv4FlagDf
    fragmentOffset := 0
    headerChecksum := 0
    options := []
    options_le := Nat.zero_le _
    payload_le := Nat.le_of_not_lt h }

/-! ### The fields that share a byte or a word -/

theorem and_mask_eq_self_iff {v mask : UInt8} {k : ℕ} (hmask : mask.toNat = 2 ^ k - 1) :
    v &&& mask = v ↔ v.toNat < 2 ^ k := by
  rw [← UInt8.toNat_inj, UInt8.toNat_and, hmask, Nat.and_two_pow_sub_one_eq_mod]
  exact Nat.mod_eq_iff_lt (Nat.two_pow_pos k).ne'

theorem and_mask_toNat_lt (v : UInt8) {mask : UInt8} {k : ℕ} (hmask : mask.toNat = 2 ^ k - 1) :
    (v &&& mask).toNat < 2 ^ k := by
  rw [UInt8.toNat_and, hmask, Nat.and_two_pow_sub_one_eq_mod]
  exact Nat.mod_lt _ (Nat.two_pow_pos k)

/-- The nibbles of the first byte are put together again. -/
theorem nibbles_eq (b : UInt8) : (b >>> 4) <<< 4 ||| (b &&& 0x0F) &&& 0x0F = b := by
  apply UInt8.eq_of_toBitVec_eq
  ext i hi
  simp
  interval_cases i <;> simp

/-- The two fields of the second byte are put together again. -/
theorem dscp_ecn_eq (b : UInt8) : ((b >>> 2) &&& 0x3F) <<< 2 ||| (b &&& 0x03) &&& 0x03 = b := by
  apply UInt8.eq_of_toBitVec_eq
  ext i hi
  simp
  interval_cases i <;> simp

/-- The high nibble of the first byte is the version. -/
theorem version_of_nibbles (ihl : UInt8) : (ipv4Version <<< 4 ||| ihl &&& 0x0F) >>> 4 =
    ipv4Version := by
  apply UInt8.eq_of_toBitVec_eq
  ext i hi
  simp [ipv4Version]
  interval_cases i <;> simp

/-- The low nibble is the IHL. -/
theorem ihl_of_nibbles (ihl : UInt8) : (ipv4Version <<< 4 ||| ihl &&& 0x0F) &&& 0x0F =
    ihl &&& 0x0F := by
  apply UInt8.eq_of_toBitVec_eq
  ext i hi
  simp [ipv4Version]
  interval_cases i <;> simp

/-- DSCP and ECN share a byte, of which the high six bits are the DSCP. -/
theorem dscp_of_byte (dscp ecn : UInt8) : ((dscp &&& 0x3F) <<< 2 ||| ecn &&& 0x03) >>> 2 =
    dscp &&& 0x3F := by
  apply UInt8.eq_of_toBitVec_eq
  ext i hi
  simp
  interval_cases i <;> simp

/-- The low two bits are the ECN. -/
theorem ecn_of_byte (dscp ecn : UInt8) : ((dscp &&& 0x3F) <<< 2 ||| ecn &&& 0x03) &&& 0x03 =
    ecn &&& 0x03 := by
  apply UInt8.eq_of_toBitVec_eq
  ext i hi
  simp
  interval_cases i <;> simp

theorem getElem_offsetMask : ∀ {i : ℕ} (hi : i < 16), (0x1FFF#16)[i] = decide (i < 13) := by
  decide

theorem getElem_flagsMask : ∀ {i : ℕ} (hi : i < 16), (0x07#16)[i] = decide (i < 3) := by
  decide

theorem getElem_flagsMask_byte : ∀ {i : ℕ} (hi : i < 8), (0x07#8)[i] = decide (i < 3) := by
  decide

/-- The flags and the fragment offset of a word are put together again. -/
theorem flagsFragment_eq (w : BitVec 16) :
    (UInt8.ofBitVec ((w >>> 13 &&& 0x07#16).setWidth 8) &&& 0x07).toBitVec.setWidth 16 <<< 13 |||
      (w &&& 0x1FFF#16) &&& 0x1FFF#16 = w := by
  have hseven : (0x07 : UInt8).toBitVec = 0x07#8 := rfl
  ext i hi
  rw [BitVec.getElem_or, BitVec.getElem_shiftLeft, BitVec.getElem_and, BitVec.getElem_and,
    getElem_offsetMask hi]
  by_cases hlow : i < 13
  · simp [hlow]
  · have hhigh : i - 13 + 13 = i := by omega
    rw [BitVec.getElem_setWidth, UInt8.toBitVec_and, hseven]
    simp only [hlow, decide_false, Bool.and_false, Bool.or_false, Bool.not_false, Bool.true_and]
    grind [getElem_flagsMask, getElem_flagsMask_byte]

/-- Flags and fragment offset share a word, of which the high three bits are the flags. -/
theorem flags_of_word (packet : Ipv4Packet) :
    UInt8.ofBitVec ((packet.flagsFragment >>> 13 &&& 0x07#16).setWidth 8) =
      packet.flags &&& 0x07 := by
  unfold Ipv4Packet.flagsFragment
  apply UInt8.eq_of_toBitVec_eq
  ext i hi
  simp
  grind [getElem_flagsMask, getElem_offsetMask, getElem_flagsMask_byte]

/-- The low 13 bits are the fragment offset. -/
theorem fragmentOffset_of_word (packet : Ipv4Packet) :
    packet.flagsFragment &&& 0x1FFF#16 = packet.fragmentOffset &&& 0x1FFF#16 := by
  unfold Ipv4Packet.flagsFragment
  ext i hi
  rw [BitVec.getElem_and, BitVec.getElem_or, BitVec.getElem_shiftLeft, BitVec.getElem_and,
    getElem_offsetMask hi]
  by_cases hlow : i < 13
  · simp [hlow]
  · simp [hlow]

/-- What is parsed as flags has three bits. -/
theorem flags_toNat_lt (w : BitVec 16) :
    (UInt8.ofBitVec ((w >>> 13 &&& 0x07#16).setWidth 8)).toNat < 8 := by
  have hle : (w >>> 13 &&& 0x07#16).toNat ≤ 7 := by
    rw [BitVec.toNat_and]
    exact Nat.and_le_right
  change ((w >>> 13 &&& 0x07#16).setWidth 8).toNat < 8
  rw [BitVec.toNat_setWidth]
  omega

/-- What is parsed as a fragment offset has 13 bits. -/
theorem fragmentOffset_toNat_lt (w : BitVec 16) : (w &&& 0x1FFF#16).toNat < 8192 := by
  have hle : (w &&& 0x1FFF#16).toNat ≤ 8191 := by
    rw [BitVec.toNat_and]
    exact Nat.and_le_right
  omega

theorem and_offsetMask_eq_self {offset : BitVec 16} (h : offset.toNat < 8192) :
    offset &&& 0x1FFF#16 = offset := by
  rw [← BitVec.toNat_inj, BitVec.toNat_and]
  exact (Nat.and_two_pow_sub_one_eq_mod offset.toNat 13).trans (Nat.mod_eq_of_lt h)

end Netstack
