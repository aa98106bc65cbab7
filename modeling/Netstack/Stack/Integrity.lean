/-
# Checksum integrity

What the serializers of the four protocols emit is accepted by the checksum of the
protocol, and what a checksum accepts is no longer accepted when a word of it is replaced.
-/

import Netstack.Icmp.Echo
import Netstack.Ipv4.Codec
import Netstack.Tcp.Codec
import Netstack.Udp.Datagram

namespace Netstack

/-- **Checksum integrity.**  Whatever is serialized validates, and a UDP datagram is never sent
without a checksum.  A replaced word, or last byte of an odd number of them, is detected at the
same length: by all four checksums, hence by `icmp_parse`, and by `ipv4_parse` when the word lies
in the header and does not change its length.  The checksum field of a UDP datagram is excepted,
and so are datagrams without a checksum. -/
theorem checksum_integrity :
    (∀ segment source destination bufferLen out,
      tcpSerializeIpv4 segment source destination bufferLen = some out →
        tcpChecksumIpv4Valid source destination out = true) ∧
    (∀ packet source destination bufferLen out,
      udpSerializeIpv4 packet source destination bufferLen = some out →
        udpChecksumIpv4Valid source destination out = true ∧ udpChecksumField out ≠ 0#16) ∧
    (∀ packet bufferLen out, ipv4Serialize packet bufferLen = some out →
      ipv4Checksum (out.take packet.headerLen) = 0#16) ∧
    (∀ packet bufferLen out, icmpSerialize packet bufferLen = some out →
      icmpChecksum out = 0#16) ∧
    ∀ i data data', Tampered i data data' →
      (∀ source destination, tcpChecksumIpv4Valid source destination data = true →
        tcpChecksumIpv4Valid source destination data' = false) ∧
      (icmpChecksum data = 0#16 →
        icmpChecksum data' ≠ 0#16 ∧ ∃ code, icmpParse data' = .error code) ∧
      (ipv4Checksum data = 0#16 → ipv4Checksum data' ≠ 0#16) ∧
      (∀ packet, ipv4Parse data = .ok packet → i < packet.headerLen →
        data'.getD 0 0 &&& 0x0F = data.getD 0 0 &&& 0x0F →
          ∃ code, ipv4Parse data' = .error code) ∧
      (∀ source destination, udpChecksumIpv4Valid source destination data = true → i ≠ 6 →
        udpChecksumField data ≠ 0#16 →
          udpChecksumIpv4Valid source destination data' = false) := by
  refine ⟨fun _ _ _ _ _ => tcpSerializeIpv4_valid, fun _ _ _ _ _ => udpSerializeIpv4_valid,
    fun _ _ _ => ipv4Checksum_ipv4Serialize, fun _ _ _ => icmpChecksum_icmpSerialize,
    fun i data data' htampered => ⟨?_, ?_, ?_, ?_, ?_⟩⟩
  · intro source destination hvalid
    exact htampered.tcpChecksumIpv4Valid_eq_false hvalid
  · intro hzero
    exact ⟨htampered.internetChecksum_ne_zero hzero, htampered.icmpParse_error hzero⟩
  · intro hzero
    exact htampered.internetChecksum_ne_zero hzero
  · intro packet hparse hi hihl
    exact htampered.ipv4Parse_error hparse hi hihl
  · intro source destination hvalid hi hfield
    exact htampered.udpChecksumIpv4Valid_eq_false hvalid hfield hi

/-- An echo reply of zeros only has the checksum `0xFFFF`, and no other value is accepted. -/
theorem allZeroReply_tampered :
    icmpChecksum [0, 0, 0xFF, 0xFF, 0, 0, 0, 0] = 0#16 ∧
      ∃ code, icmpParse [0, 0, 0xFF, 0xFE, 0, 0, 0, 0] = .error code := by
  have hserialized : icmpSerialize ⟨0, 0, 0, 0, 0, [], Nat.zero_le _⟩ 1500 =
      some [0, 0, 0xFF, 0xFF, 0, 0, 0, 0] := by decide +kernel
  have hzero := checksum_integrity.2.2.2.1 _ _ _ hserialized
  have htampered : Tampered 2 [0, 0, 0xFF, 0xFF, 0, 0, 0, 0] [0, 0, 0xFF, 0xFE, 0, 0, 0, 0] :=
    @Tampered.word [0, 0] _ _ _ _ _ ⟨1, rfl⟩ (by decide) (by unfold Exchange; decide)
  exact ⟨hzero, ((checksum_integrity.2.2.2.2 _ _ _ htampered).2.1 hzero).2⟩

end Netstack
