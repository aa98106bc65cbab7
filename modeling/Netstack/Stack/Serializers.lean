/-
# The length arithmetic of the serializers

As long as the lengths stay within the arrays, each serializer does on memory what it does
on byte lists (`tcpSerializeInto_eq` and the others).  Four of them look at `payload_len`
before they add the header length to it; `tcp_serialize` looks at the sum only, which may
have wrapped around (`serializers_exact_iff`).
-/

import Netstack.Ipv4.Codec
import Netstack.Stack.PacketStructs

namespace Netstack

/-- What the caller of a serializer is left with, the return value and the buffer, when these bytes
or nothing are written. -/
def emitted (buffer : List UInt8) : Option (List UInt8) → Checked (ℕ × List UInt8)
  | none => .ok (0, buffer)
  | some out => .ok (out.length, out ++ buffer.drop out.length)

/-- The length law of a serializer: nothing is written, or the sum of the lengths fits into the
buffer and into a packet, no access is outside of an array, and the sum is returned. -/
def LengthExact (headerLen payloadLen maxLen : ℕ) (buffer : List UInt8)
    (result : Checked (ℕ × List UInt8)) : Prop :=
  result = .ok (0, buffer) ∨ headerLen + payloadLen ≤ buffer.length ∧
    headerLen + payloadLen ≤ maxLen ∧
    ∃ written, written.length = buffer.length ∧ result = .ok (headerLen + payloadLen, written)

/-- A serializer that writes what its pure counterpart returns, and nothing otherwise, is exact
when that has the length of header and payload and fits. The four siblings of `tcp_serialize` are
of this kind. -/
theorem lengthExact_emitted {headerLen payloadLen maxLen : ℕ} {buffer : List UInt8}
    {written : Option (List UInt8)} (h : ∀ out, written = some out →
      out.length = headerLen + payloadLen ∧ headerLen + payloadLen ≤ buffer.length ∧
        headerLen + payloadLen ≤ maxLen) :
    LengthExact headerLen payloadLen maxLen buffer (emitted buffer written) := by
  cases written with
  | none => exact .inl rfl
  | some out =>
      obtain ⟨hlen, hroom, hmax⟩ := h out rfl
      refine .inr ⟨hroom, hmax, out ++ buffer.drop out.length, ?_, ?_⟩
      · rw [List.length_append, List.length_drop]
        omega
      · rw [emitted, hlen]

/-- `memset(buffer, 0, n)` leaves what is behind. -/
theorem memset_eq {buffer : List UInt8} {n : ℕ} (h : n ≤ buffer.length) :
    writeRange buffer 0 (List.replicate n 0) = .ok (List.replicate n 0 ++ buffer.drop n) := by
  have hlen : (List.replicate n (0 : UInt8)).length = n := List.length_replicate
  rw [writeRange_of_le (by omega), hlen, Nat.zero_add]
  rfl

theorem length_memset {buffer : List UInt8} {n : ℕ} (h : n ≤ buffer.length) :
    (List.replicate n (0 : UInt8) ++ buffer.drop n).length = buffer.length := by
  rw [List.length_append, List.length_replicate, List.length_drop]
  omega

/-- The header is written over whatever the buffer holds. -/
theorem writeHeader {buffer : List UInt8} {fields : List (ℕ × List UInt8)} {n : ℕ}
    (hfields : Adjacent 0 fields) (hn : (fields.flatMap Prod.snd).length = n)
    (hroom : n ≤ buffer.length) :
    writeFields buffer fields = .ok (fields.flatMap Prod.snd ++ buffer.drop n) := by
  subst hn
  exact @writeFields_append UInt8 [] buffer fields hfields hroom

/-- What is behind the zeros of `memset` is left. -/
theorem drop_memset (buffer : List UInt8) {n k : ℕ} (h : k = n) :
    (List.replicate n (0 : UInt8) ++ buffer.drop n).drop k = buffer.drop n := by
  subst h
  exact List.drop_left' List.length_replicate

/-! ### TCP -/

theorem TcpSegmentStruct.headerWrites_adjacent (segment : TcpSegmentStruct) :
    Adjacent 0 segment.headerWrites := by
  simp [Adjacent, headerWrites]

theorem TcpSegmentStruct.image_view (segment : TcpSegmentStruct) :
    segment.view.imageWith segment.view.offsetByte segment.view.checksum =
      segment.headerWrites.flatMap Prod.snd ++ segment.options.used ++ segment.payload.used := rfl

/-- The header length that `tcp_serialize` computes from an offset that it accepts. -/
theorem tcp_sizes {offset : BitVec 8} (h : ¬(offset < 5#8 ∨ offset > 15#8)) :
    5 ≤ offset.toNat ∧ offset.toNat ≤ 15 ∧ sizeMul offset.toNat 4 = offset.toNat * 4 ∧
      sizeSub (offset.toNat * 4) tcpMinHeaderLen = offset.toNat * 4 - tcpMinHeaderLen := by
  obtain ⟨hge, hle⟩ := not_or.1 h
  have hge' : 5 ≤ offset.toNat := Nat.le_of_not_lt hge
  have hle' : offset.toNat ≤ 15 := Nat.le_of_not_lt hle
  exact ⟨hge', hle', sizeMul_of_le (by unfold sizeMax; omega),
    sizeSub_of_le (by unfold tcpMinHeaderLen; omega) (by unfold sizeMax; omega)⟩

/-- What `tcp_serialize` writes. -/
theorem TcpSegmentStruct.write_eq {segment : TcpSegmentStruct} {buffer : List UInt8}
    {headerLen : ℕ} (hoptions : segment.options.len ≤ 40)
    (hpayload : segment.payload.len ≤ tcpMaxPayloadLen)
    (hheader : headerLen = tcpMinHeaderLen + segment.options.len)
    (hroom : headerLen + segment.payload.len ≤ buffer.length) : (do
      let buffer ← writeRange buffer 0 (List.replicate (headerLen + segment.payload.len) 0)
      let buffer ← writeFields buffer segment.headerWrites
      let buffer ← segment.options.copyTo buffer tcpMinHeaderLen
      let buffer ← segment.payload.copyTo buffer headerLen
      return (headerLen + segment.payload.len, buffer)) =
    emitted buffer
      (some (segment.view.imageWith segment.view.offsetByte segment.view.checksum)) := by
  have hzeroed := memset_eq hroom
  have hlength := length_memset hroom
  obtain ⟨zeroed, hz⟩ : ∃ zeroed, zeroed = List.replicate (headerLen + segment.payload.len) 0 ++
    buffer.drop (headerLen + segment.payload.len) := ⟨_, rfl⟩
  have hoptionsUsed := segment.options.length_used hoptions
  have hpayloadUsed := segment.payload.length_used hpayload
  have hfields : (segment.headerWrites.flatMap Prod.snd).length = tcpMinHeaderLen := rfl
  have hfront : (segment.headerWrites.flatMap Prod.snd ++ segment.options.used).length =
      headerLen := by
    rw [List.length_append, hfields, hoptionsUsed, hheader]
  rw [← hz] at hzeroed hlength
  rw [hzeroed, ok_bind, writeHeader segment.headerWrites_adjacent hfields (by omega), ok_bind,
    segment.options.copyTo_append hoptions hfields (by rw [List.length_drop]; omega), ok_bind,
    segment.payload.copyTo_append hpayload hfront
      (by rw [List.length_drop, List.length_drop]; omega), ok_bind,
    List.drop_drop, List.drop_drop, hz, drop_memset buffer (by omega), ← image_view]
  have himage : (segment.view.imageWith segment.view.offsetByte segment.view.checksum).length =
      headerLen + segment.payload.len := by
    rw [image_view, List.length_append, hfront, hpayloadUsed]
  rw [emitted, himage]
  rfl

/-- **Refinement.**  Within the arrays, `tcp_serialize` does what it does on byte lists. -/
theorem tcpSerializeInto_eq {segment : TcpSegmentStruct} (hoptions : segment.options.len ≤ 40)
    (hpayload : segment.payload.len ≤ tcpMaxPayloadLen) (buffer : List UInt8) :
    tcpSerializeInto segment buffer =
      emitted buffer (tcpSerialize segment.view buffer.length) := by
  have hoffsetView : segment.view.dataOffset = segment.dataOffset := rfl
  have hoptionsView : segment.view.options.length = segment.options.len :=
    segment.options.length_used hoptions
  have hpayloadView : segment.view.payload.length = segment.payload.len :=
    segment.payload.length_used hpayload
  simp only [tcpSerializeInto, tcpSerialize, hoffsetView, hoptionsView, hpayloadView]
  by_cases hoffset : segment.dataOffset < 5#8 ∨ segment.dataOffset > 15#8
  · rw [if_pos hoffset, if_pos hoffset, emitted]
  obtain ⟨hge, hle, hheader, hexpected⟩ := tcp_sizes hoffset
  rw [if_neg hoffset, if_neg hoffset, hheader, hexpected]
  by_cases hlen : segment.options.len = segment.dataOffset.toNat * 4 - tcpMinHeaderLen
  swap
  · rw [if_pos hlen, if_pos hlen, emitted]
  have htotal : sizeAdd (segment.dataOffset.toNat * 4) segment.payload.len =
      segment.dataOffset.toNat * 4 + segment.payload.len := by
    unfold tcpMaxPayloadLen tcpMaxPacketLen at hpayload
    exact sizeAdd_of_le (by unfold sizeMax; omega)
  rw [if_neg (not_not.2 hlen), if_neg (not_not.2 hlen), htotal]
  by_cases hfits : segment.dataOffset.toNat * 4 + segment.payload.len > tcpMaxPacketLen ∨
      buffer.length < segment.dataOffset.toNat * 4 + segment.payload.len
  · rw [if_pos hfits, if_pos hfits, emitted]
  · have hsum : segment.dataOffset.toNat * 4 = tcpMinHeaderLen + segment.options.len := by
      unfold tcpMinHeaderLen at *
      omega
    rw [if_neg hfits, if_neg hfits]
    exact segment.write_eq hoptions hpayload hsum (Nat.le_of_not_lt (not_or.1 hfits).2)

/-- The sum of the lengths wraps around to one that passes the checks of `tcp_serialize`. -/
def TcpSegmentStruct.Wraps (segment : TcpSegmentStruct) (bufferLen : ℕ) : Prop :=
  (5 ≤ segment.dataOffset.toNat ∧ segment.dataOffset.toNat ≤ 15) ∧
    segment.options.len = segment.dataOffset.toNat * 4 - 20 ∧
    2 ^ 64 ≤ segment.dataOffset.toNat * 4 + segment.payload.len ∧
    segment.dataOffset.toNat * 4 + segment.payload.len - 2 ^ 64 ≤ bufferLen

theorem not_lengthExact_error {headerLen payloadLen maxLen : ℕ} {buffer : List UInt8}
    {fault : Fault} : ¬LengthExact headerLen payloadLen maxLen buffer (.error fault) := by
  simp [LengthExact]

/-- When the sum has wrapped around, the payload is copied from behind its array. -/
theorem TcpSegmentStruct.write_of_lt {segment : TcpSegmentStruct}
    (hpayload : tcpMaxPayloadLen < segment.payload.len) (buffer : List UInt8)
    (totalLen headerLen : ℕ) : ∃ fault, (do
      let buffer ← writeRange buffer 0 (List.replicate totalLen 0)
      let buffer ← writeFields buffer segment.headerWrites
      let buffer ← segment.options.copyTo buffer tcpMinHeaderLen
      let buffer ← segment.payload.copyTo buffer headerLen
      return (totalLen, buffer) : Checked (ℕ × List UInt8)) = .error fault := by
  refine bind_error fun zeroed => bind_error fun header => bind_error fun front => ?_
  rw [segment.payload.copyTo_of_lt hpayload]
  exact ⟨.read, rfl⟩

/-- With a payload that fits into its array, the length law holds. -/
theorem tcpSerializeInto_exact_of_le {segment : TcpSegmentStruct}
    (hoptions : segment.options.len ≤ 40) (hpayload : segment.payload.len ≤ tcpMaxPayloadLen)
    (buffer : List UInt8) :
    LengthExact (segment.dataOffset.toNat * 4) segment.payload.len 65535 buffer
      (tcpSerializeInto segment buffer) := by
  have hview : segment.view.payload.length = segment.payload.len :=
    segment.payload.length_used hpayload
  rw [tcpSerializeInto_eq hoptions hpayload]
  refine lengthExact_emitted fun out hout => ?_
  obtain ⟨hhas, hmax, hroom, rfl⟩ := tcpSerialize_eq_some_iff.1 hout
  rw [hview] at hmax hroom
  refine ⟨?_, hroom, hmax⟩
  rw [hhas.length_imageWith, hview]
  rfl

/-- With a payload that does not, only a sum that has wrapped around passes the checks. -/
theorem tcpSerializeInto_of_lt {segment : TcpSegmentStruct} {buffer : List UInt8}
    (hoffset : ¬(segment.dataOffset < 5#8 ∨ segment.dataOffset > 15#8))
    (hoptions : segment.options.len = segment.dataOffset.toNat * 4 - tcpMinHeaderLen)
    (hpayload : tcpMaxPayloadLen < segment.payload.len) :
    if 2 ^ 64 ≤ segment.dataOffset.toNat * 4 + segment.payload.len ∧
        segment.dataOffset.toNat * 4 + segment.payload.len - 2 ^ 64 ≤ buffer.length
    then ∃ fault, tcpSerializeInto segment buffer = .error fault
    else tcpSerializeInto segment buffer = .ok (0, buffer) := by
  have hlen := segment.payload.len_le
  unfold sizeMax at hlen
  obtain ⟨hge, hle, hheader, hexpected⟩ := tcp_sizes hoffset
  have hserialize : tcpSerializeInto segment buffer = _ := if_neg hoffset
  dsimp only at hserialize
  rw [hheader, hexpected, if_neg (not_not.2 hoptions)] at hserialize
  have hbig : 65515 < segment.payload.len := hpayload
  rcases Nat.lt_or_ge (segment.dataOffset.toNat * 4 + segment.payload.len) (2 ^ 64) with
    hfits | hover
  · have htotal : sizeAdd (segment.dataOffset.toNat * 4) segment.payload.len =
        segment.dataOffset.toNat * 4 + segment.payload.len := Nat.mod_eq_of_lt hfits
    rw [htotal, if_pos (.inl (by unfold tcpMaxPacketLen; omega))] at hserialize
    rwa [if_neg fun h => Nat.not_le_of_lt hfits h.1]
  have htotal : sizeAdd (segment.dataOffset.toNat * 4) segment.payload.len =
      segment.dataOffset.toNat * 4 + segment.payload.len - 2 ^ 64 := by
    rw [sizeAdd, Nat.mod_eq_sub_mod hover]
    exact Nat.mod_eq_of_lt (by omega)
  rw [htotal] at hserialize
  by_cases hroom : buffer.length < segment.dataOffset.toNat * 4 + segment.payload.len - 2 ^ 64
  · rw [if_pos (.inr hroom)] at hserialize
    rwa [if_neg fun h => Nat.not_le_of_lt hroom h.2]
  · have hpass : ¬(segment.dataOffset.toNat * 4 + segment.payload.len - 2 ^ 64 >
        tcpMaxPacketLen ∨ buffer.length <
          segment.dataOffset.toNat * 4 + segment.payload.len - 2 ^ 64) := by
      refine not_or.2 ⟨?_, hroom⟩
      unfold tcpMaxPacketLen
      omega
    rw [if_pos ⟨hover, Nat.le_of_not_lt hroom⟩, hserialize, if_neg hpass]
    exact segment.write_of_lt hpayload buffer _ _

/-- **The law of `tcp_serialize`**, and where it fails. -/
theorem tcpSerializeInto_exact_iff (segment : TcpSegmentStruct) (buffer : List UInt8) :
    LengthExact (segment.dataOffset.toNat * 4) segment.payload.len 65535 buffer
        (tcpSerializeInto segment buffer) ↔ ¬segment.Wraps buffer.length := by
  by_cases hoffset : segment.dataOffset < 5#8 ∨ segment.dataOffset > 15#8
  · have hresult : tcpSerializeInto segment buffer = .ok (0, buffer) := if_pos hoffset
    have hwraps : ¬segment.Wraps buffer.length := by
      rintro ⟨⟨hge, hle⟩, -⟩
      exact hoffset.elim (Nat.not_lt_of_le hge) (Nat.not_lt_of_le hle)
    exact ⟨fun _ => hwraps, fun _ => .inl hresult⟩
  obtain ⟨hge, hle, hheader, hexpected⟩ := tcp_sizes hoffset
  by_cases hoptions : segment.options.len = segment.dataOffset.toNat * 4 - tcpMinHeaderLen
  swap
  · have hserialize : tcpSerializeInto segment buffer = _ := if_neg hoffset
    dsimp only at hserialize
    rw [hheader, hexpected, if_pos hoptions] at hserialize
    have hwraps : ¬segment.Wraps buffer.length := fun h => hoptions h.2.1
    exact ⟨fun _ => hwraps, fun _ => .inl hserialize⟩
  by_cases hpayload : segment.payload.len ≤ tcpMaxPayloadLen
  · have hwraps : ¬segment.Wraps buffer.length := by
      rintro ⟨-, -, hover, -⟩
      unfold tcpMaxPayloadLen tcpMaxPacketLen at hpayload
      omega
    have hmost : segment.options.len ≤ 40 := by
      unfold tcpMinHeaderLen at hoptions
      omega
    exact ⟨fun _ => hwraps, fun _ => tcpSerializeInto_exact_of_le hmost hpayload buffer⟩
  · have hresult := @tcpSerializeInto_of_lt segment buffer hoffset hoptions
      (Nat.lt_of_not_le hpayload)
    split_ifs at hresult with hover
    · obtain ⟨fault, hfault⟩ := hresult
      have hwraps : segment.Wraps buffer.length := ⟨⟨hge, hle⟩, hoptions, hover⟩
      rw [hfault]
      exact ⟨fun h => absurd h not_lengthExact_error, fun h => absurd hwraps h⟩
    · exact ⟨fun _ h => hover h.2.2, fun _ => .inl hresult⟩

/-! ### UDP and Ethernet -/

/-- A header and the payload behind it. -/
theorem writePacket {buffer : List UInt8} {fields : List (ℕ × List UInt8)} {headerLen capacity : ℕ}
    {payload : CountedArray UInt8 capacity} (hfields : Adjacent 0 fields)
    (hheader : (fields.flatMap Prod.snd).length = headerLen) (hcapacity : payload.len ≤ capacity)
    (hroom : headerLen + payload.len ≤ buffer.length) : (do
      let buffer ← writeFields buffer fields
      let buffer ← payload.copyTo buffer headerLen
      return (headerLen + payload.len, buffer)) =
    emitted buffer (some (fields.flatMap Prod.snd ++ payload.used)) := by
  have hused := payload.length_used hcapacity
  rw [writeHeader hfields hheader (by omega), ok_bind,
    payload.copyTo_append hcapacity hheader (by rw [List.length_drop]; omega), ok_bind,
    List.drop_drop, emitted, List.length_append, hheader, hused]
  rfl

/-- **Refinement.**  Within the array, `udp_serialize` does what it does on byte lists. -/
theorem udpSerializeInto_eq {packet : UdpPacketStruct}
    (hpayload : packet.payload.len ≤ udpMaxPayloadLen) (buffer : List UInt8) :
    udpSerializeInto packet buffer =
      emitted buffer (udpSerialize packet.view buffer.length) := by
  have hview : packet.view.payload.length = packet.payload.len :=
    packet.payload.length_used hpayload
  have htotal : sizeAdd udpHeaderLen packet.payload.len = udpHeaderLen + packet.payload.len := by
    unfold udpMaxPayloadLen udpMaxPacketLen udpHeaderLen at *
    exact sizeAdd_of_le (by unfold sizeMax; omega)
  simp only [udpSerializeInto, udpSerialize, hview, htotal]
  rw [if_neg (Nat.not_lt_of_le hpayload), if_neg (Nat.not_lt_of_le hpayload)]
  by_cases hfits : udpHeaderLen + packet.payload.len > udpMaxPacketLen ∨
      buffer.length < udpHeaderLen + packet.payload.len
  · rw [if_pos hfits, if_pos hfits, emitted]
  · have hfields : Adjacent 0 (packet.headerWrites (udpHeaderLen + packet.payload.len)) := by
      simp [Adjacent, UdpPacketStruct.headerWrites]
    rw [if_neg hfits, if_neg hfits]
    exact writePacket hfields rfl hpayload (Nat.le_of_not_lt (not_or.1 hfits).2)

/-- **Refinement.**  Within the array, `ethernet_serialize` does what it does on byte lists. -/
theorem ethernetSerializeInto_eq {frame : EthernetFrameStruct}
    (hpayload : frame.payload.len ≤ ethernetMaxPayload) (buffer : List UInt8) :
    ethernetSerializeInto frame buffer =
      emitted buffer (ethernetSerialize frame.view buffer.length) := by
  have hview : frame.view.payload.length = frame.payload.len :=
    frame.payload.length_used hpayload
  have htotal : sizeAdd ethernetHeaderLen frame.payload.len =
      ethernetHeaderLen + frame.payload.len := by
    unfold ethernetMaxPayload ethernetHeaderLen at *
    exact sizeAdd_of_le (by unfold sizeMax; omega)
  simp only [ethernetSerializeInto, ethernetSerialize, hview, htotal]
  rw [if_neg (Nat.not_lt_of_le hpayload), if_neg (Nat.not_lt_of_le hpayload)]
  by_cases hfits : buffer.length < ethernetHeaderLen + frame.payload.len
  · rw [if_pos hfits, if_pos hfits, emitted]
  · have hfields : Adjacent 0 frame.headerWrites := by
      simp [Adjacent, EthernetFrameStruct.headerWrites, MacAddress.bytes]
    rw [if_neg hfits, if_neg hfits]
    exact writePacket hfields rfl hpayload (Nat.le_of_not_lt hfits)

/-- `udp_serialize` compares the payload length with a limit before it adds, so that its sum does
not wrap. -/
theorem udpSerializeInto_exact (packet : UdpPacketStruct) (buffer : List UInt8) :
    LengthExact 8 packet.payload.len 65535 buffer (udpSerializeInto packet buffer) := by
  by_cases hpayload : packet.payload.len ≤ udpMaxPayloadLen
  · have hview : packet.view.payload.length = packet.payload.len :=
      packet.payload.length_used hpayload
    rw [udpSerializeInto_eq hpayload]
    refine lengthExact_emitted fun out hout => ?_
    obtain ⟨hroom, rfl⟩ := udpSerialize_eq_some_iff.1 hout
    rw [packet.view.length_imageWith, hview]
    exact ⟨rfl, hview ▸ hroom, hview ▸ packet.view.length_payload_le⟩
  · exact .inl (if_pos (Nat.lt_of_not_le hpayload))

/-- The same for `ethernet_serialize`. -/
theorem ethernetSerializeInto_exact (frame : EthernetFrameStruct) (buffer : List UInt8) :
    LengthExact 14 frame.payload.len 1514 buffer (ethernetSerializeInto frame buffer) := by
  by_cases hpayload : frame.payload.len ≤ ethernetMaxPayload
  · have hview : frame.view.payload.length = frame.payload.len :=
      frame.payload.length_used hpayload
    rw [ethernetSerializeInto_eq hpayload]
    refine lengthExact_emitted fun out hout => ?_
    obtain ⟨hroom, rfl⟩ := ethernetSerialize_eq_some_iff.1 hout
    rw [frame.view.length_image, hview]
    unfold ethernetMaxPayload at hpayload
    exact ⟨rfl, hview ▸ hroom, by omega⟩
  · exact .inl (if_pos (Nat.lt_of_not_le hpayload))

/-! ### ICMP and IPv4 -/

/-- A field of what has been written is written again. -/
theorem writeU16_front {front : List UInt8} {i : ℕ} (h : i + 2 ≤ front.length) (value : BitVec 16)
    (rest : List UInt8) : writeRange (front ++ rest) i (writeU16Be value) =
      .ok (writeU16At front i value ++ rest) := writeRange_front h rest

/-- What `icmp_serialize` writes. -/
theorem IcmpPacketStruct.write_eq {packet : IcmpPacketStruct} {buffer : List UInt8}
    (hpayload : packet.payload.len ≤ icmpMaxPayloadLen)
    (hroom : icmpEchoHeaderLen + packet.payload.len ≤ buffer.length) : (do
      let buffer ← writeRange buffer 0
        (List.replicate (icmpEchoHeaderLen + packet.payload.len) 0)
      let buffer ← writeFields buffer packet.headerWrites
      let buffer ← packet.payload.copyTo buffer icmpEchoHeaderLen
      let covered ← readRange buffer 0 (icmpEchoHeaderLen + packet.payload.len)
      let buffer ← writeRange buffer 2 (writeU16Be (icmpChecksum covered))
      return (icmpEchoHeaderLen + packet.payload.len, buffer)) =
    emitted buffer (some (writeU16At (packet.view.imageWith 0#16) 2
      (icmpChecksum (packet.view.imageWith 0#16)))) := by
  have hzeroed := memset_eq hroom
  have hlength := length_memset hroom
  obtain ⟨zeroed, hz⟩ : ∃ zeroed, zeroed =
    List.replicate (icmpEchoHeaderLen + packet.payload.len) 0 ++
      buffer.drop (icmpEchoHeaderLen + packet.payload.len) := ⟨_, rfl⟩
  have hused := packet.payload.length_used hpayload
  have hfields : Adjacent 0 packet.headerWrites := by
    simp [Adjacent, headerWrites]
  have hheader : (packet.headerWrites.flatMap Prod.snd).length = icmpEchoHeaderLen := rfl
  have himage : packet.headerWrites.flatMap Prod.snd ++ packet.payload.used =
      packet.view.imageWith 0#16 := rfl
  have himageLen : (packet.view.imageWith 0#16).length =
      icmpEchoHeaderLen + packet.payload.len := by
    rw [← himage, List.length_append, hheader, hused]
  have hfield : 2 + 2 ≤ (packet.view.imageWith 0#16).length := by
    rw [himageLen]
    unfold icmpEchoHeaderLen
    omega
  rw [← hz] at hzeroed hlength
  rw [hzeroed, ok_bind, writeHeader hfields hheader (by omega), ok_bind,
    packet.payload.copyTo_append hpayload hheader (by rw [List.length_drop]; omega), ok_bind,
    List.drop_drop, hz, drop_memset buffer rfl, himage, readRange_front himageLen, ok_bind,
    writeU16_front hfield, ok_bind, emitted, length_writeU16At hfield, himageLen]
  rfl

/-- **Refinement.**  Within the array, `icmp_serialize` does what it does on byte lists. -/
theorem icmpSerializeInto_eq {packet : IcmpPacketStruct}
    (hpayload : packet.payload.len ≤ icmpMaxPayloadLen) (buffer : List UInt8) :
    icmpSerializeInto packet buffer =
      emitted buffer (icmpSerialize packet.view buffer.length) := by
  have htypeView : packet.view.type = packet.type := rfl
  have hcodeView : packet.view.code = packet.code := rfl
  have hview : packet.view.payload.length = packet.payload.len :=
    packet.payload.length_used hpayload
  have htotal : sizeAdd icmpEchoHeaderLen packet.payload.len =
      icmpEchoHeaderLen + packet.payload.len := by
    unfold icmpMaxPayloadLen icmpMaxPacketLen icmpEchoHeaderLen at *
    exact sizeAdd_of_le (by unfold sizeMax; omega)
  simp only [icmpSerializeInto, icmpSerialize, htypeView, hcodeView, hview, htotal]
  by_cases htype : packet.type ≠ icmpTypeEchoRequest ∧ packet.type ≠ icmpTypeEchoReply
  · rw [if_pos htype, if_pos htype, emitted]
  rw [if_neg htype, if_neg htype]
  by_cases hcode : packet.code = icmpCodeEcho
  swap
  · rw [if_pos hcode, if_pos hcode, emitted]
  rw [if_neg (not_not.2 hcode), if_neg (not_not.2 hcode), if_neg (Nat.not_lt_of_le hpayload),
    if_neg (Nat.not_lt_of_le hpayload)]
  by_cases hfits : buffer.length < icmpEchoHeaderLen + packet.payload.len
  · rw [if_pos hfits, if_pos hfits, emitted]
  · rw [if_neg hfits, if_neg hfits]
    exact packet.write_eq hpayload (Nat.le_of_not_lt hfits)

/-- The same for `icmp_serialize`, which also refuses what is no echo. -/
theorem icmpSerializeInto_exact (packet : IcmpPacketStruct) (buffer : List UInt8) :
    LengthExact 8 packet.payload.len 65535 buffer (icmpSerializeInto packet buffer) := by
  by_cases hpayload : packet.payload.len ≤ icmpMaxPayloadLen
  · have hview : packet.view.payload.length = packet.payload.len :=
      packet.payload.length_used hpayload
    rw [icmpSerializeInto_eq hpayload]
    refine lengthExact_emitted fun out hout => ?_
    obtain ⟨-, hroom, rfl⟩ := icmpSerialize_eq_some_iff.1 hout
    rw [packet.view.length_imageWith, hview]
    unfold icmpMaxPayloadLen icmpMaxPacketLen icmpEchoHeaderLen at hpayload
    exact ⟨rfl, hview ▸ hroom, by omega⟩
  · have hlarge : packet.payload.len > icmpMaxPayloadLen := Nat.lt_of_not_le hpayload
    refine .inl ?_
    unfold icmpSerializeInto
    split_ifs <;> rfl

/-- The header length that `ipv4_serialize` computes from an IHL that it accepts. -/
theorem ipv4_sizes {ihl : UInt8} (h : ¬(ihl < ipv4MinIhl ∨ ihl > 15)) :
    5 ≤ ihl.toNat ∧ ihl.toNat ≤ 15 ∧ sizeMul ihl.toNat 4 = ihl.toNat * 4 ∧
      sizeSub (ihl.toNat * 4) ipv4MinHeaderLen = ihl.toNat * 4 - ipv4MinHeaderLen := by
  obtain ⟨hge, hle⟩ := not_or.1 h
  have hge' : 5 ≤ ihl.toNat := Nat.le_of_not_lt hge
  have hle' : ihl.toNat ≤ 15 := Nat.le_of_not_lt hle
  exact ⟨hge', hle', sizeMul_of_le (by unfold sizeMax; omega),
    sizeSub_of_le (by unfold ipv4MinHeaderLen; omega) (by unfold sizeMax; omega)⟩

/-- What `ipv4_serialize` writes. -/
theorem Ipv4PacketStruct.write_eq {packet : Ipv4PacketStruct} {buffer : List UInt8}
    {headerLen : ℕ} (hoptions : packet.options.len ≤ 40)
    (hpayload : packet.payload.len ≤ ipv4MaxPayloadLen)
    (hsum : headerLen = ipv4MinHeaderLen + packet.options.len)
    (hroom : headerLen + packet.payload.len ≤ buffer.length) : (do
      let buffer ← writeRange buffer 0 (List.replicate (headerLen + packet.payload.len) 0)
      let buffer ← writeFields buffer (packet.headerWrites (headerLen + packet.payload.len))
      let buffer ← packet.options.copyTo buffer ipv4MinHeaderLen
      let covered ← readRange buffer 0 headerLen
      let buffer ← writeRange buffer 10 (writeU16Be (ipv4Checksum covered))
      let buffer ← packet.payload.copyTo buffer headerLen
      return (headerLen + packet.payload.len, buffer)) =
    emitted buffer (some (writeU16At
      (packet.view.headerWith (BitVec.ofNat 16 (headerLen + packet.payload.len)) 0#16) 10
      (ipv4Checksum
        (packet.view.headerWith (BitVec.ofNat 16 (headerLen + packet.payload.len)) 0#16)) ++
          packet.payload.used)) := by
  have hzeroed := memset_eq hroom
  have hlength := length_memset hroom
  obtain ⟨zeroed, hz⟩ : ∃ zeroed, zeroed =
    List.replicate (headerLen + packet.payload.len) 0 ++
      buffer.drop (headerLen + packet.payload.len) := ⟨_, rfl⟩
  obtain ⟨header, hheader⟩ : ∃ header, header =
    packet.view.headerWith (BitVec.ofNat 16 (headerLen + packet.payload.len)) 0#16 := ⟨_, rfl⟩
  have hoptionsUsed := packet.options.length_used hoptions
  have hpayloadUsed := packet.payload.length_used hpayload
  have hfields : Adjacent 0 (packet.headerWrites (headerLen + packet.payload.len)) := by
    simp [Adjacent, headerWrites, Ipv4Address.bytes]
  have hfieldsLen : ((packet.headerWrites (headerLen + packet.payload.len)).flatMap
      Prod.snd).length = ipv4MinHeaderLen := rfl
  have hfront : (packet.headerWrites (headerLen + packet.payload.len)).flatMap Prod.snd ++
      packet.options.used = header := by
    rw [hheader]
    rfl
  have hheaderLen : header.length = headerLen := by
    rw [← hfront, List.length_append, hfieldsLen, hoptionsUsed, hsum]
  have hfield : 10 + 2 ≤ header.length := by
    rw [hheaderLen, hsum]
    unfold ipv4MinHeaderLen
    omega
  have hsealed : (writeU16At header 10 (ipv4Checksum header)).length = headerLen := by
    rw [length_writeU16At hfield, hheaderLen]
  rw [← hz] at hzeroed hlength
  rw [hzeroed, ok_bind, writeHeader hfields hfieldsLen (by omega), ok_bind,
    packet.options.copyTo_append hoptions hfieldsLen (by rw [List.length_drop]; omega), ok_bind,
    hfront, readRange_front hheaderLen, ok_bind, writeU16_front hfield, ok_bind,
    packet.payload.copyTo_append hpayload hsealed
      (by rw [List.length_drop, List.length_drop]; omega), ok_bind,
    List.drop_drop, List.drop_drop, hz, drop_memset buffer (by omega), ← hheader, emitted,
    List.length_append, hsealed, hpayloadUsed]
  rfl

/-- **Refinement.**  Within the arrays, `ipv4_serialize` does what it does on byte lists. -/
theorem ipv4SerializeInto_eq {packet : Ipv4PacketStruct} (hoptions : packet.options.len ≤ 40)
    (hpayload : packet.payload.len ≤ ipv4MaxPayloadLen) (buffer : List UInt8) :
    ipv4SerializeInto packet buffer =
      emitted buffer (ipv4Serialize packet.view buffer.length) := by
  have hversionView : packet.view.version = packet.version := rfl
  have hihlView : packet.view.ihl = packet.ihl := rfl
  have hoptionsView : packet.view.options.length = packet.options.len :=
    packet.options.length_used hoptions
  have hpayloadView : packet.view.payload.length = packet.payload.len :=
    packet.payload.length_used hpayload
  simp only [ipv4SerializeInto, ipv4Serialize, hversionView, hihlView, hoptionsView, hpayloadView]
  by_cases hversion : packet.version = ipv4Version
  swap
  · rw [if_pos hversion, if_pos hversion, emitted]
  rw [if_neg (not_not.2 hversion), if_neg (not_not.2 hversion)]
  by_cases hihl : packet.ihl < ipv4MinIhl ∨ packet.ihl > 15
  · rw [if_pos hihl, if_pos hihl, emitted]
  obtain ⟨hge, hle, hheader, hexpected⟩ := ipv4_sizes hihl
  rw [if_neg hihl, if_neg hihl, hheader, hexpected]
  by_cases hlen : packet.options.len = packet.ihl.toNat * 4 - ipv4MinHeaderLen
  swap
  · rw [if_pos hlen, if_pos hlen, emitted]
  have htotal : sizeAdd (packet.ihl.toNat * 4) packet.payload.len =
      packet.ihl.toNat * 4 + packet.payload.len := by
    unfold ipv4MaxPayloadLen ipv4MaxPacketLen ipv4MinHeaderLen at *
    exact sizeAdd_of_le (by unfold sizeMax; omega)
  rw [if_neg (not_not.2 hlen), if_neg (not_not.2 hlen), if_neg (Nat.not_lt_of_le hpayload),
    if_neg (Nat.not_lt_of_le hpayload), htotal]
  by_cases hfits : packet.ihl.toNat * 4 + packet.payload.len > ipv4MaxPacketLen ∨
      buffer.length < packet.ihl.toNat * 4 + packet.payload.len
  · rw [if_pos hfits, if_pos hfits, emitted]
  · have hsum : packet.ihl.toNat * 4 = ipv4MinHeaderLen + packet.options.len := by
      unfold ipv4MinHeaderLen at *
      omega
    rw [if_neg hfits, if_neg hfits]
    exact packet.write_eq hoptions hpayload hsum (Nat.le_of_not_lt (not_or.1 hfits).2)

/-- `ipv4_serialize` compares the payload length with what the header leaves of 65535 before it
adds. -/
theorem ipv4SerializeInto_exact (packet : Ipv4PacketStruct) (buffer : List UInt8) :
    LengthExact (packet.ihl.toNat * 4) packet.payload.len 65535 buffer
      (ipv4SerializeInto packet buffer) := by
  by_cases hlengths : packet.options.len ≤ 40 ∧ packet.payload.len ≤ ipv4MaxPayloadLen
  · obtain ⟨hoptions, hpayload⟩ := hlengths
    have hview : packet.view.payload.length = packet.payload.len :=
      packet.payload.length_used hpayload
    have hheaderView : packet.view.headerLen = packet.ihl.toNat * 4 := rfl
    rw [ipv4SerializeInto_eq hoptions hpayload]
    refine lengthExact_emitted fun out hout => ?_
    have hlen := length_ipv4Serialize hout
    obtain ⟨-, hmax, hroom, -⟩ := ipv4Serialize_eq_some_iff.1 hout
    rw [hview, hheaderView] at hlen hmax hroom
    exact ⟨hlen, hroom, hmax⟩
  · refine .inl ?_
    unfold ipv4SerializeInto
    dsimp only
    split_ifs with hversion hihl hoptions hpayload
    iterate 5 rfl
    · obtain ⟨hge, hle, hheader, hexpected⟩ := ipv4_sizes hihl
      rw [hheader, hexpected, not_not] at hoptions
      unfold ipv4MinHeaderLen at hoptions
      exact absurd ⟨by omega, Nat.le_of_not_lt hpayload⟩ hlengths

/-! ### All five -/

/-- The serializers of UDP, IPv4, ICMP and Ethernet meet the length law on every struct and every
buffer; that of TCP does so exactly when the sum of the lengths does not wrap around to one that
fits. -/
theorem serializers_exact_iff (buffer : List UInt8) :
    (∀ segment : TcpSegmentStruct,
      LengthExact (segment.dataOffset.toNat * 4) segment.payload.len 65535 buffer
        (tcpSerializeInto segment buffer) ↔ ¬segment.Wraps buffer.length) ∧
    (∀ packet : UdpPacketStruct,
      LengthExact 8 packet.payload.len 65535 buffer (udpSerializeInto packet buffer)) ∧
    (∀ packet : Ipv4PacketStruct,
      LengthExact (packet.ihl.toNat * 4) packet.payload.len 65535 buffer
        (ipv4SerializeInto packet buffer)) ∧
    (∀ packet : IcmpPacketStruct,
      LengthExact 8 packet.payload.len 65535 buffer (icmpSerializeInto packet buffer)) ∧
    ∀ frame : EthernetFrameStruct,
      LengthExact 14 frame.payload.len 1514 buffer (ethernetSerializeInto frame buffer) :=
  ⟨fun segment => tcpSerializeInto_exact_iff segment buffer,
    fun packet => udpSerializeInto_exact packet buffer,
    fun packet => ipv4SerializeInto_exact packet buffer,
    fun packet => icmpSerializeInto_exact packet buffer,
    fun frame => ethernetSerializeInto_exact frame buffer⟩

/-- A segment of zeros, whose `payload_len` and header length add up to `2 ^ 64`. -/
def wrappingSegment : TcpSegmentStruct where
  sourcePort := 0
  destinationPort := 0
  sequenceNumber := 0
  acknowledgmentNumber := 0
  dataOffset := 5
  flags := 0
  windowSize := 0
  checksum := 0
  urgentPointer := 0
  options := ⟨List.replicate (tcpMaxHeaderLen - tcpMinHeaderLen) 0, 0, List.length_replicate,
    Nat.zero_le _⟩
  payload := ⟨List.replicate tcpMaxPayloadLen 0, 2 ^ 64 - 20, List.length_replicate, by decide⟩

/-- With twenty bytes of buffer, the header is written, and `memcpy` runs out of the payload. -/
theorem wrappingSegment_overruns :
    tcpSerializeInto wrappingSegment (List.replicate 20 0) = .error .read ∧
      ¬LengthExact 20 (2 ^ 64 - 20) 65535 (List.replicate 20 0)
        (tcpSerializeInto wrappingSegment (List.replicate 20 0)) := by
  have hmemset : writeRange (List.replicate 20 0) 0 (List.replicate 0 (0 : UInt8)) =
      .ok (List.replicate 20 0) := rfl
  have hlarge : tcpMaxPayloadLen < wrappingSegment.payload.len := by decide
  have hoffset : ¬(wrappingSegment.dataOffset < 5#8 ∨ wrappingSegment.dataOffset > 15#8) := by
    decide
  have hoptions : ¬wrappingSegment.options.len ≠
      sizeSub (sizeMul wrappingSegment.dataOffset.toNat 4) tcpMinHeaderLen := by decide
  have htotal : sizeAdd (sizeMul wrappingSegment.dataOffset.toNat 4)
      wrappingSegment.payload.len = 0 := by decide
  have hpass : ¬(0 > tcpMaxPacketLen ∨ (List.replicate 20 (0 : UInt8)).length < 0) := by decide
  have hempty : ∀ buffer : List UInt8,
      wrappingSegment.options.copyTo buffer tcpMinHeaderLen = .ok buffer := fun _ => rfl
  have hresult : tcpSerializeInto wrappingSegment (List.replicate 20 0) = .error .read := by
    unfold tcpSerializeInto
    simp only [htotal]
    rw [if_neg hoffset, if_neg hoptions, if_neg hpass, hmemset, ok_bind,
      writeHeader wrappingSegment.headerWrites_adjacent rfl (by decide), ok_bind, hempty, ok_bind,
      wrappingSegment.payload.copyTo_of_lt hlarge]
    rfl
  refine ⟨hresult, ?_⟩
  rw [hresult]
  exact not_lengthExact_error

end Netstack
