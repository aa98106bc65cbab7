/-
# The TCP codec

`tcp_parse`, `tcp_serialize`, `tcp_checksum_ipv4`, `tcp_serialize_ipv4` and
`tcp_checksum_ipv4_valid` of `src/tcp.c`.

The payload of a segment is no longer than its array, so that the sum of the header and
payload lengths does not wrap around in `tcp_serialize`, which bounds the sum only.
-/

import Mathlib.Tactic.IntervalCases
import Netstack.Checksum
import Netstack.Tcp.Segment

namespace Netstack

attribute [ext] TcpSegment

/-- The options that a header of `data_offset` words leaves room for. -/
theorem length_tcpOptions_le {dataOffset : BitVec 8} (h : ¬(dataOffset < 5#8 ∨ dataOffset > 15#8))
    (data : List UInt8) :
    (data.take (dataOffset.toNat * 4 - tcpMinHeaderLen)).length ≤
      tcpMaxHeaderLen - tcpMinHeaderLen := by
  have hle : ¬15 < dataOffset.toNat := (not_or.1 h).2
  have htake := List.length_take_le (dataOffset.toNat * 4 - tcpMinHeaderLen) data
  unfold tcpMinHeaderLen tcpMaxHeaderLen at *
  omega

/-- `tcp_parse` -/
def tcpParse (data : List UInt8) : Except ℤ TcpSegment :=
  if hshort : data.length < tcpMinHeaderLen then .error (-2)
  else
    have hlen : 19 < data.length := Nat.le_of_not_lt hshort
    let dataOffset := data[12].toBitVec >>> 4
    if hoffset : dataOffset < 5#8 ∨ dataOffset > 15#8 then .error (-3)
    else
      let headerLen := dataOffset.toNat * 4
      if headerLen > data.length then .error (-3)
      else
        let payloadLen := data.length - headerLen
        if hpayload : payloadLen > tcpMaxPayloadLen then .error (-4)
        else .ok {
          dataOffset
          sourcePort := u16Be data[0] data[1]
          destinationPort := u16Be data[2] data[3]
          sequenceNumber := u32Be data[4] data[5] data[6] data[7]
          acknowledgmentNumber := u32Be data[8] data[9] data[10] data[11]
          flags := data[13].toBitVec
          windowSize := u16Be data[14] data[15]
          checksum := u16Be data[16] data[17]
          urgentPointer := u16Be data[18] data[19]
          options := (data.drop tcpMinHeaderLen).take (headerLen - tcpMinHeaderLen)
          payload := (data.drop headerLen).take payloadLen
          options_le := length_tcpOptions_le hoffset _
          payload_le := (List.length_take_le _ _).trans (Nat.le_of_not_lt hpayload) }

/-- The bytes of a segment whose offset byte and checksum field are the given ones. -/
def TcpSegment.imageWith (segment : TcpSegment) (offsetByte : UInt8) (checksum : BitVec 16) :
    List UInt8 :=
  writeU16Be segment.sourcePort ++ writeU16Be segment.destinationPort ++
    writeU32Be segment.sequenceNumber ++ writeU32Be segment.acknowledgmentNumber ++
    [offsetByte, UInt8.ofBitVec segment.flags] ++ writeU16Be segment.windowSize ++
    writeU16Be checksum ++ (writeU16Be segment.urgentPointer ++ segment.options ++ segment.payload)

/-- The byte that `tcp_serialize` writes at the offset 12. -/
def TcpSegment.offsetByte (segment : TcpSegment) : UInt8 :=
  UInt8.ofBitVec (segment.dataOffset <<< 4)

/-- `tcp_serialize` -/
def tcpSerialize (segment : TcpSegment) (bufferLen : ℕ) : Option (List UInt8) :=
  if segment.dataOffset < 5#8 ∨ segment.dataOffset > 15#8 then none
  else
    let headerLen := segment.dataOffset.toNat * 4
    let expectedOptionsLen := headerLen - tcpMinHeaderLen
    if segment.options.length ≠ expectedOptionsLen then none
    else
      let totalLen := headerLen + segment.payload.length
      if totalLen > tcpMaxPacketLen ∨ bufferLen < totalLen then none
      else some (segment.imageWith segment.offsetByte segment.checksum)

/-- `tcp_checksum_sum_ipv4` -/
def tcpChecksumSumIpv4 (source destination : Ipv4Address) (tcpData : List UInt8) : BitVec 32 :=
  let sum := addBytes 0#32 source.bytes
  let sum := addBytes sum destination.bytes
  let sum := checksumAdd sum 0x0006#16
  let sum := checksumAdd sum (BitVec.ofNat 16 tcpData.length)
  addBytes sum tcpData

/-- `tcp_checksum_ipv4` -/
def tcpChecksumIpv4 (source destination : Ipv4Address) (tcpData : List UInt8) : BitVec 16 :=
  if tcpData.length < tcpMinHeaderLen ∨ tcpData.length > 65535 then 0#16
  else
    let result := checksumFinish (tcpChecksumSumIpv4 source destination tcpData)
    if result = 0#16 then 0xFFFF#16 else result

/-- `tcp_serialize_ipv4` -/
def tcpSerializeIpv4 (segment : TcpSegment) (source destination : Ipv4Address) (bufferLen : ℕ) :
    Option (List UInt8) :=
  match tcpSerialize { segment with checksum := 0 } bufferLen with
  | none => none
  | some buffer =>
      let checksum := tcpChecksumIpv4 source destination buffer
      if checksum = 0#16 then none else some (writeU16At buffer 16 checksum)

/-- `tcp_checksum_ipv4_valid` -/
def tcpChecksumIpv4Valid (source destination : Ipv4Address) (tcpData : List UInt8) : Bool :=
  if tcpData.length < tcpMinHeaderLen ∨ tcpData.length > 65535 then false
  else checksumFinish (tcpChecksumSumIpv4 source destination tcpData) = 0#16

/-! ### Parsing and serializing -/

/-- What `tcp_serialize` asks of the header. -/
structure TcpSegment.HasHeader (segment : TcpSegment) : Prop where
  dataOffset_ge : 5 ≤ segment.dataOffset.toNat
  dataOffset_le : segment.dataOffset.toNat ≤ 15
  options_eq : segment.options.length = segment.dataOffset.toNat * 4 - 20

/-- A segment whose header is accepted has as many bytes as its offset says, and its payload. -/
theorem TcpSegment.HasHeader.length_imageWith {segment : TcpSegment} (h : segment.HasHeader)
    (offsetByte : UInt8) (checksum : BitVec 16) : (segment.imageWith offsetByte checksum).length =
      segment.dataOffset.toNat * 4 + segment.payload.length := by
  have hge := h.dataOffset_ge
  simp only [imageWith, List.length_append, length_writeU16Be, length_writeU32Be,
    List.length_cons, List.length_nil, h.options_eq]
  omega

/-- The offset is in the high nibble of its byte. -/
theorem TcpSegment.offset_offsetByte {segment : TcpSegment} (h : segment.HasHeader) :
    segment.offsetByte.toBitVec >>> 4 = segment.dataOffset := by
  have hle := h.dataOffset_le
  rw [← BitVec.toNat_inj, offsetByte, BitVec.toNat_ushiftRight, BitVec.toNat_shiftLeft,
    Nat.shiftLeft_eq, Nat.shiftRight_eq_div_pow]
  omega

/-- What is parsed consists of the bytes of the segment that is returned, where the low nibble of
the offset byte may be anything. -/
theorem tcpParse_sound {data : List UInt8} {segment : TcpSegment}
    (h : tcpParse data = .ok segment) : segment.HasHeader ∧ ∃ offsetByte : UInt8,
      offsetByte.toBitVec >>> 4 = segment.dataOffset ∧
      data = segment.imageWith offsetByte segment.checksum := by
  unfold tcpParse at h
  dsimp only at h
  split_ifs at h with hshort hoffset hheader hpayload
  have hlen : 20 ≤ data.length := Nat.le_of_not_lt hshort
  obtain ⟨hge, hle⟩ := not_or.1 hoffset
  have hsegment := Except.ok.inj h
  have hdataOffset : segment.dataOffset = data[12].toBitVec >>> 4 := by rw [← hsegment]
  have hge' : 5 ≤ segment.dataOffset.toNat := by
    rw [hdataOffset]
    exact Nat.le_of_not_lt hge
  have hle' : segment.dataOffset.toNat ≤ 15 := by
    rw [hdataOffset]
    exact Nat.le_of_not_lt hle
  rw [← hdataOffset] at hheader
  have hoptions : segment.options =
      (data.drop 20).take (segment.dataOffset.toNat * 4 - 20) := by
    rw [hdataOffset, ← hsegment]
    rfl
  have hpayload : segment.payload = data.drop (segment.dataOffset.toNat * 4) := by
    have htake : segment.payload = (data.drop (segment.dataOffset.toNat * 4)).take
        (data.length - segment.dataOffset.toNat * 4) := by
      rw [hdataOffset, ← hsegment]
    rw [htake]
    exact List.take_of_length_le (by rw [List.length_drop])
  refine ⟨⟨hge', hle', ?_⟩, data[12], hdataOffset.symm, ?_⟩
  · rw [hoptions, List.length_take, List.length_drop]
    omega
  · have hrest : segment.options ++ segment.payload = data.drop 20 := by
      have hsplit : segment.dataOffset.toNat * 4 = 20 + (segment.dataOffset.toNat * 4 - 20) := by
        omega
      rw [hoptions, hpayload]
      conv_lhs => rw [hsplit, Nat.add_sub_cancel_left, ← List.drop_drop]
      exact List.take_append_drop _ _
    rw [TcpSegment.imageWith, List.append_assoc (writeU16Be segment.urgentPointer), hrest,
      ← hsegment]
    simp only [writeU16Be_u16Be, writeU32Be_u32Be, List.cons_append, List.nil_append]
    exact eq_cons_twenty hlen

/-- The bytes of a segment are parsed to the segment. -/
theorem tcpParse_complete {segment : TcpSegment} (hheader : segment.HasHeader)
    {offsetByte : UInt8} (hbyte : offsetByte.toBitVec >>> 4 = segment.dataOffset) :
    tcpParse (segment.imageWith offsetByte segment.checksum) = .ok segment := by
  obtain ⟨data, hdata⟩ : ∃ data, data = segment.imageWith offsetByte segment.checksum := ⟨_, rfl⟩
  rw [← hdata]
  have hge := hheader.dataOffset_ge
  have hle := hheader.dataOffset_le
  have hlen : data.length = segment.dataOffset.toNat * 4 + segment.payload.length := by
    rw [hdata, hheader.length_imageWith]
  have hoffset : data[12].toBitVec >>> 4 = segment.dataOffset := by
    subst hdata
    exact hbyte
  have hshort : ¬data.length < tcpMinHeaderLen := by
    unfold tcpMinHeaderLen
    omega
  have hrange : ¬(segment.dataOffset < 5#8 ∨ segment.dataOffset > 15#8) :=
    not_or.2 ⟨Nat.not_lt_of_le hge, Nat.not_lt_of_le hle⟩
  have hdiff : data.length - segment.dataOffset.toNat * 4 = segment.payload.length := by
    rw [hlen, Nat.add_sub_cancel_left]
  have hpayload : ¬data.length - segment.dataOffset.toNat * 4 > tcpMaxPayloadLen := by
    rw [hdiff]
    exact Nat.not_lt_of_le segment.payload_le
  have hdrop : data.drop 20 = segment.options ++ segment.payload := by
    subst hdata
    rfl
  have hoptions : (data.drop 20).take (segment.dataOffset.toNat * 4 - 20) = segment.options := by
    rw [hdrop, ← hheader.options_eq, List.take_left]
  have hrest : (data.drop (segment.dataOffset.toNat * 4)).take
      (data.length - segment.dataOffset.toNat * 4) = segment.payload := by
    have hsplit : segment.dataOffset.toNat * 4 = 20 + segment.options.length := by
      rw [hheader.options_eq]
      omega
    rw [hdiff, hsplit, ← List.drop_drop, hdrop, List.drop_left, List.take_length]
  unfold tcpParse
  rw [dif_neg hshort]
  simp only [hoffset]
  rw [dif_neg hrange, if_neg (by omega), dif_neg hpayload]
  refine congrArg Except.ok (TcpSegment.ext ?_ ?_ ?_ ?_ rfl ?_ ?_ ?_ ?_ hoptions hrest)
  all_goals subst hdata
  · exact u16Be_writeU16Be segment.sourcePort
  · exact u16Be_writeU16Be segment.destinationPort
  · exact u32Be_writeU32Be segment.sequenceNumber
  · exact u32Be_writeU32Be segment.acknowledgmentNumber
  · rfl
  · exact u16Be_writeU16Be segment.windowSize
  · exact u16Be_writeU16Be segment.checksum
  · exact u16Be_writeU16Be segment.urgentPointer

/-- **Parsing.**  The accepted byte strings are those of segments, up to the low nibble of the
offset byte, and the segment is what is returned. -/
theorem tcpParse_eq_ok_iff {data : List UInt8} {segment : TcpSegment} :
    tcpParse data = .ok segment ↔ segment.HasHeader ∧ ∃ offsetByte : UInt8,
      offsetByte.toBitVec >>> 4 = segment.dataOffset ∧
      data = segment.imageWith offsetByte segment.checksum := by
  refine ⟨tcpParse_sound, ?_⟩
  rintro ⟨hheader, offsetByte, hbyte, rfl⟩
  exact tcpParse_complete hheader hbyte

/-- **Serialization.** What is accepted is a header whose offset fits its options, with a payload
that fits into 16 bits of length and into the buffer; what is written are the bytes of the
segment. -/
theorem tcpSerialize_eq_some_iff {segment : TcpSegment} {bufferLen : ℕ} {out : List UInt8} :
    tcpSerialize segment bufferLen = some out ↔ segment.HasHeader ∧
      segment.dataOffset.toNat * 4 + segment.payload.length ≤ 65535 ∧
      segment.dataOffset.toNat * 4 + segment.payload.length ≤ bufferLen ∧
      out = segment.imageWith segment.offsetByte segment.checksum := by
  have hoffset : ¬(segment.dataOffset < 5#8 ∨ segment.dataOffset > 15#8) ↔
      5 ≤ segment.dataOffset.toNat ∧ segment.dataOffset.toNat ≤ 15 := by
    rw [not_or]
    exact and_congr Nat.not_lt Nat.not_lt
  have hroom : ¬(segment.dataOffset.toNat * 4 + segment.payload.length > tcpMaxPacketLen ∨
      bufferLen < segment.dataOffset.toNat * 4 + segment.payload.length) ↔
        segment.dataOffset.toNat * 4 + segment.payload.length ≤ 65535 ∧
          segment.dataOffset.toNat * 4 + segment.payload.length ≤ bufferLen := by
    rw [not_or]
    exact and_congr Nat.not_lt Nat.not_lt
  unfold tcpSerialize
  dsimp only
  rw [Option.ite_none_left_eq_some, hoffset, Option.ite_none_left_eq_some, not_not,
    Option.ite_none_left_eq_some, hroom, Option.some.injEq, eq_comm (b := out)]
  constructor
  · rintro ⟨⟨hge, hle⟩, hoptions, ⟨hmax, hfits⟩, hout⟩
    exact ⟨⟨hge, hle, hoptions⟩, hmax, hfits, hout⟩
  · rintro ⟨⟨hge, hle, hoptions⟩, hmax, hfits, hout⟩
    exact ⟨⟨hge, hle⟩, hoptions, ⟨hmax, hfits⟩, hout⟩

/-! ### The checksum -/

/-- The words are those of the pseudo-header. -/
theorem tcpChecksumSumIpv4_eq (source destination : Ipv4Address) (tcpData : List UInt8) :
    tcpChecksumSumIpv4 source destination tcpData = pseudoSum source destination 6 tcpData := by
  have hprotocol : u16Be 0 6 = 0x0006#16 := by decide
  simp only [tcpChecksumSumIpv4, pseudoSum, pseudoHeader, Ipv4Address.bytes, writeU16Be,
    List.cons_append, List.nil_append, addBytes, hprotocol, u16Be_writeU16Be]

theorem tcpChecksumSumIpv4_toNat (source destination : Ipv4Address) (tcpData : List UInt8) :
    (tcpChecksumSumIpv4 source destination tcpData).toNat =
      residue 65535 (covered source destination 6 tcpData) := by
  rw [tcpChecksumSumIpv4_eq, pseudoSum_toNat]

/-- The checksum balances what it is computed from, and zero is not sent. -/
theorem tcpChecksumIpv4_spec {source destination : Ipv4Address} {tcpData : List UInt8}
    (hmin : 20 ≤ tcpData.length) (hmax : tcpData.length ≤ 65535) :
    tcpChecksumIpv4 source destination tcpData ≠ 0#16 ∧
      Balanced 65535 (covered source destination 6 tcpData +
        (tcpChecksumIpv4 source destination tcpData).toNat) := by
  have hrange : ¬(tcpData.length < tcpMinHeaderLen ∨ tcpData.length > 65535) := by
    unfold tcpMinHeaderLen
    omega
  unfold tcpChecksumIpv4
  rw [if_neg hrange]
  refine ⟨?_, balanced_checksumFinish_or (tcpChecksumSumIpv4_toNat source destination tcpData)⟩
  dsimp only
  split_ifs with hzero
  · decide
  · exact hzero

/-- What is valid: a segment whose sum is balanced. -/
theorem tcpChecksumIpv4Valid_iff {source destination : Ipv4Address} {tcpData : List UInt8} :
    tcpChecksumIpv4Valid source destination tcpData = true ↔ 20 ≤ tcpData.length ∧
      tcpData.length ≤ 65535 ∧ Balanced 65535 (covered source destination 6 tcpData) := by
  have hfinish := checksumFinish_eq_zero_iff (tcpChecksumSumIpv4_toNat source destination tcpData)
  unfold tcpChecksumIpv4Valid
  split_ifs with hrange
  · simp only [false_iff, not_and]
    unfold tcpMinHeaderLen at hrange
    intro hmin hmax
    omega
  · obtain ⟨hmin, hmax⟩ := not_or.1 hrange
    rw [decide_eq_true_iff, hfinish]
    exact ⟨fun h => ⟨Nat.le_of_not_lt hmin, Nat.le_of_not_lt hmax, h⟩, fun h => h.2.2⟩

/-- The checksum that `tcp_serialize_ipv4` writes. -/
def TcpSegment.wireChecksum (segment : TcpSegment) (source destination : Ipv4Address) :
    BitVec 16 :=
  tcpChecksumIpv4 source destination (segment.imageWith segment.offsetByte 0#16)

/-- The checksum that is written balances the sum, and is never the zero that stands for none. -/
theorem TcpSegment.wireChecksum_spec {segment : TcpSegment} (h : segment.HasHeader)
    (hmax : segment.dataOffset.toNat * 4 + segment.payload.length ≤ 65535)
    (source destination : Ipv4Address) :
    segment.wireChecksum source destination ≠ 0#16 ∧
      Balanced 65535 (covered source destination 6 (segment.imageWith segment.offsetByte 0#16) +
        (segment.wireChecksum source destination).toNat) := by
  have hlen := h.length_imageWith segment.offsetByte 0#16
  have hge := h.dataOffset_ge
  exact tcpChecksumIpv4_spec (by omega) (by omega)

/-- **Serialization with a checksum.** It is computed over the serialized bytes while the field
in them is zero, and written there. -/
theorem tcpSerializeIpv4_eq_some_iff {segment : TcpSegment} {source destination : Ipv4Address}
    {bufferLen : ℕ} {out : List UInt8} :
    tcpSerializeIpv4 segment source destination bufferLen = some out ↔ segment.HasHeader ∧
      segment.dataOffset.toNat * 4 + segment.payload.length ≤ 65535 ∧
      segment.dataOffset.toNat * 4 + segment.payload.length ≤ bufferLen ∧
      out = segment.imageWith segment.offsetByte (segment.wireChecksum source destination) := by
  have hwrite : writeU16At (segment.imageWith segment.offsetByte 0#16) 16
      (segment.wireChecksum source destination) =
        segment.imageWith segment.offsetByte (segment.wireChecksum source destination) :=
    writeU16At_append rfl 0#16 _ _
  unfold tcpSerializeIpv4
  by_cases hfits : segment.HasHeader ∧
      segment.dataOffset.toNat * 4 + segment.payload.length ≤ 65535 ∧
      segment.dataOffset.toNat * 4 + segment.payload.length ≤ bufferLen
  · obtain ⟨hheader, hmax, hroom⟩ := hfits
    have hbuffer : tcpSerialize { segment with checksum := 0 } bufferLen =
        some (segment.imageWith segment.offsetByte 0#16) :=
      tcpSerialize_eq_some_iff.2 ⟨⟨hheader.1, hheader.2, hheader.3⟩, hmax, hroom, rfl⟩
    have hne := (TcpSegment.wireChecksum_spec hheader hmax source destination).1
    rw [hbuffer, and_iff_right hheader, and_iff_right hmax, and_iff_right hroom, ← hwrite,
      eq_comm (a := out)]
    dsimp only
    rw [← TcpSegment.wireChecksum, if_neg hne, Option.some.injEq]
  · have hbuffer : tcpSerialize { segment with checksum := 0 } bufferLen = none := by
      refine Option.eq_none_iff_forall_ne_some.2 fun _ h => hfits ?_
      obtain ⟨hheader, hmax, hroom, -⟩ := tcpSerialize_eq_some_iff.1 h
      exact ⟨⟨hheader.1, hheader.2, hheader.3⟩, hmax, hroom⟩
    rw [hbuffer]
    constructor
    · intro h
      exact absurd h (by simp)
    · rintro ⟨hheader, hmax, hroom, -⟩
      exact absurd ⟨hheader, hmax, hroom⟩ hfits

/-- **Round trip.**  What is serialized is parsed to the segment with the checksum that was
written. -/
theorem tcpParse_tcpSerializeIpv4 {segment : TcpSegment} {source destination : Ipv4Address}
    {bufferLen : ℕ} {out : List UInt8}
    (h : tcpSerializeIpv4 segment source destination bufferLen = some out) :
    tcpParse out = .ok { segment with checksum := segment.wireChecksum source destination } := by
  obtain ⟨hheader, -, -, rfl⟩ := tcpSerializeIpv4_eq_some_iff.1 h
  generalize segment.wireChecksum source destination = checksum
  have hheader' : TcpSegment.HasHeader { segment with checksum } :=
    ⟨hheader.1, hheader.2, hheader.3⟩
  have hparse := tcpParse_complete hheader' (TcpSegment.offset_offsetByte hheader')
  exact hparse

/-- **What is sent is valid.** -/
theorem tcpSerializeIpv4_valid {segment : TcpSegment} {source destination : Ipv4Address}
    {bufferLen : ℕ} {out : List UInt8}
    (h : tcpSerializeIpv4 segment source destination bufferLen = some out) :
    tcpChecksumIpv4Valid source destination out = true := by
  obtain ⟨hheader, hmax, -, rfl⟩ := tcpSerializeIpv4_eq_some_iff.1 h
  have hlen := hheader.length_imageWith segment.offsetByte
  have hge := hheader.dataOffset_ge
  have hbalanced := (TcpSegment.wireChecksum_spec hheader hmax source destination).2
  have hcovered : covered source destination 6
      (segment.imageWith segment.offsetByte (segment.wireChecksum source destination)) =
        covered source destination 6 (segment.imageWith segment.offsetByte 0#16) +
          (segment.wireChecksum source destination).toNat := by
    rw [covered, covered, hlen, hlen, Nat.add_assoc]
    exact congrArg _ (wordSum_field ⟨8, rfl⟩ _ _)
  refine tcpChecksumIpv4Valid_iff.2 ⟨?_, ?_, hcovered ▸ hbalanced⟩
  · rw [hlen]
    omega
  · rw [hlen]
    exact hmax

/-- **A replaced word is detected.** -/
theorem Tampered.tcpChecksumIpv4Valid_eq_false {i : ℕ} {data data' : List UInt8}
    (h : Tampered i data data') {source destination : Ipv4Address}
    (hvalid : tcpChecksumIpv4Valid source destination data = true) :
    tcpChecksumIpv4Valid source destination data' = false := by
  obtain ⟨-, -, hbalanced⟩ := tcpChecksumIpv4Valid_iff.1 hvalid
  rw [← Bool.not_eq_true, tcpChecksumIpv4Valid_iff]
  rintro ⟨-, -, hbalanced'⟩
  exact h.not_balanced_covered hbalanced hbalanced'

/-! ### The inverse laws -/

/-- The offset nibble of the header. -/
def offsetNibble (data : List UInt8) : ℕ := (data.getD 12 0).toNat / 16

theorem toNat_shiftRight_four (byte : UInt8) : (byte.toBitVec >>> 4).toNat = byte.toNat / 16 := by
  rw [BitVec.toNat_ushiftRight, Nat.shiftRight_eq_div_pow]
  rfl

/-- The offset that a parser reads from the bytes is the one of the segment. -/
theorem TcpSegment.offsetNibble_imageWith {segment : TcpSegment} {offsetByte : UInt8}
    (h : offsetByte.toBitVec >>> 4 = segment.dataOffset) (checksum : BitVec 16) :
    offsetNibble (segment.imageWith offsetByte checksum) = segment.dataOffset.toNat := by
  rw [← h, toNat_shiftRight_four]
  rfl

/-- **Acceptance.**  `tcp_parse` looks at the length and at the offset nibble only. -/
theorem exists_tcpParse_eq_ok_iff {data : List UInt8} : (∃ segment, tcpParse data = .ok segment) ↔
    20 ≤ data.length ∧ 5 ≤ offsetNibble data ∧ 4 * offsetNibble data ≤ data.length ∧
      data.length - 4 * offsetNibble data ≤ 65515 := by
  constructor
  · rintro ⟨segment, h⟩
    obtain ⟨hheader, offsetByte, hbyte, hdata⟩ := tcpParse_sound h
    have hge := hheader.dataOffset_ge
    have hnibble : offsetNibble data = segment.dataOffset.toNat := by
      rw [hdata, TcpSegment.offsetNibble_imageWith hbyte]
    have hlen : data.length = segment.dataOffset.toNat * 4 + segment.payload.length := by
      rw [hdata, hheader.length_imageWith]
    have hpayload : segment.payload.length ≤ 65515 := segment.payload_le
    omega
  · rintro ⟨hmin, hge, hheader, hmax⟩
    have hoffset : (data[12].toBitVec >>> 4).toNat = offsetNibble data := by
      rw [toNat_shiftRight_four, offsetNibble, List.getD_eq_getElem?_getD,
        List.getElem?_eq_getElem (by omega), Option.getD_some]
    have hle : offsetNibble data ≤ 15 := by
      have hlt := (data.getD 12 0).toNat_lt
      unfold offsetNibble
      omega
    have hshort : ¬data.length < tcpMinHeaderLen := Nat.not_lt_of_le hmin
    have hrange : ¬(data[12].toBitVec >>> 4 < 5#8 ∨ data[12].toBitVec >>> 4 > 15#8) := by
      refine not_or.2 ⟨Nat.not_lt_of_le ?_, Nat.not_lt_of_le ?_⟩
      · exact hoffset ▸ hge
      · exact hoffset ▸ hle
    have hfits : ¬(data[12].toBitVec >>> 4).toNat * 4 > data.length := by omega
    have hpayload :
        ¬data.length - (data[12].toBitVec >>> 4).toNat * 4 > tcpMaxPayloadLen := by
      rw [hoffset, Nat.mul_comm]
      exact Nat.not_lt_of_le hmax
    unfold tcpParse
    rw [dif_neg hshort]
    dsimp only
    rw [dif_neg hrange, if_neg hfits, dif_neg hpayload]
    exact ⟨_, rfl⟩

/-- Shifting the nibble out and in again clears the other one. -/
theorem offsetByte_eq_and (byte : UInt8) :
    UInt8.ofBitVec (byte.toBitVec >>> 4 <<< 4) = byte &&& 0xF0 := by
  rw [← UInt8.toBitVec_inj]
  ext i hi
  simp
  interval_cases i <;> simp

/-- **Parsing inverts serializing.** -/
theorem tcpParse_tcpSerialize {segment : TcpSegment} {bufferLen : ℕ} {out : List UInt8}
    (h : tcpSerialize segment bufferLen = some out) : tcpParse out = .ok segment := by
  obtain ⟨hheader, -, -, rfl⟩ := tcpSerialize_eq_some_iff.1 h
  exact tcpParse_complete hheader (TcpSegment.offset_offsetByte hheader)

/-- **Serializing inverts parsing**, up to the reserved bits. -/
theorem tcpSerialize_of_tcpParse {data : List UInt8} {segment : TcpSegment}
    (h : tcpParse data = .ok segment) (hmax : data.length ≤ 65535) {bufferLen : ℕ}
    (hroom : data.length ≤ bufferLen) :
    tcpSerialize segment bufferLen = some (data.set 12 (data.getD 12 0 &&& 0xF0)) := by
  obtain ⟨hheader, offsetByte, hbyte, rfl⟩ := tcpParse_sound h
  have hlen := hheader.length_imageWith offsetByte segment.checksum
  have hcleared : segment.offsetByte = offsetByte &&& 0xF0 := by
    rw [TcpSegment.offsetByte, ← hbyte, offsetByte_eq_and]
  refine tcpSerialize_eq_some_iff.2 ⟨hheader, hlen ▸ hmax, hlen ▸ hroom, ?_⟩
  rw [hcleared]
  rfl

/-- `tcp_parse` and `tcp_serialize` invert each other. -/
theorem tcp_codec_laws :
    (∀ (segment : TcpSegment) (bufferLen : ℕ), segment.HasHeader →
      segment.dataOffset.toNat * 4 + segment.payload.length ≤ 65535 →
      segment.dataOffset.toNat * 4 + segment.payload.length ≤ bufferLen →
      ∃ out, tcpSerialize segment bufferLen = some out ∧
        out.length = segment.dataOffset.toNat * 4 + segment.payload.length ∧
        tcpParse out = .ok segment) ∧
    (∀ data : List UInt8, (∃ segment, tcpParse data = .ok segment) ↔
      20 ≤ data.length ∧ 5 ≤ offsetNibble data ∧ 4 * offsetNibble data ≤ data.length ∧
        data.length - 4 * offsetNibble data ≤ 65515) ∧
    ∀ (data : List UInt8) (segment : TcpSegment) (bufferLen : ℕ), tcpParse data = .ok segment →
      data.length ≤ 65535 → data.length ≤ bufferLen →
      tcpSerialize segment bufferLen = some (data.set 12 (data.getD 12 0 &&& 0xF0)) := by
  refine ⟨fun segment bufferLen hheader hmax hroom => ?_, fun data => exists_tcpParse_eq_ok_iff,
    fun data segment bufferLen h hmax hroom => tcpSerialize_of_tcpParse h hmax hroom⟩
  have hserialize := tcpSerialize_eq_some_iff.2 ⟨hheader, hmax, hroom, rfl⟩
  exact ⟨_, hserialize, hheader.length_imageWith _ _, tcpParse_tcpSerialize hserialize⟩

/-- A segment that carries the maximum segment size option and three bytes. -/
def optionSegment : TcpSegment where
  sourcePort := 40000
  destinationPort := 8080
  sequenceNumber := 1000
  acknowledgmentNumber := 2000
  dataOffset := 6
  flags := 0x18
  windowSize := 32768
  checksum := 0
  urgentPointer := 0
  options := [2, 4, 5, 180]
  payload := [66, 84, 10]
  options_le := by decide
  payload_le := by decide

/-- The bytes of the segment, with the reserved bits set. -/
def optionBytes : List UInt8 :=
  [156, 64, 31, 144, 0, 0, 3, 232, 0, 0, 7, 208, 111, 24, 128, 0, 0, 0, 0, 0, 2, 4, 5, 180, 66, 84,
    10]

theorem tcp_codec_laws_optionSegment :
    (∃ out, tcpSerialize optionSegment 64 = some out ∧ out.length = 27 ∧
      tcpParse out = .ok optionSegment) ∧
    tcpSerialize optionSegment 64 = some (optionBytes.set 12 (optionBytes.getD 12 0 &&& 0xF0)) :=
  ⟨tcp_codec_laws.1 optionSegment 64 ⟨by decide, by decide, rfl⟩ (by decide) (by decide),
    tcp_codec_laws.2.2 optionBytes optionSegment 64 (by decide) (by decide) (by decide)⟩

end Netstack
