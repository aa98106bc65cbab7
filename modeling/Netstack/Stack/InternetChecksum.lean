/-
# One checksum

The loops of `ipv4_checksum`, `icmp_checksum`, `tcp_checksum_sum_ipv4` and the functions of
`udp.c` are structured differently, and compute the same: the complement of the sum of the
words in one's-complement arithmetic, over the data or over the pseudo-header and the data.
-/

import Netstack.Icmp.Echo
import Netstack.Ipv4.Packet
import Netstack.Tcp.Codec
import Netstack.Udp.Datagram

namespace Netstack

/-- The Internet checksum: `0xFFFF` less the number up to `0xFFFF` that is congruent to the sum of
the words modulo `65535`, and that is zero only when all bytes are. -/
def IsInternetChecksum (data : List UInt8) (checksum : BitVec 16) : Prop :=
  ∃ s ≤ 65535, checksum.toNat = 65535 - s ∧ s ≡ wordSum data [MOD 65535] ∧
    (s = 0 ↔ ∀ b ∈ data, b = 0)

theorem isInternetChecksum_internetChecksum (data : List UInt8) :
    IsInternetChecksum data (internetChecksum data) :=
  ⟨residue 65535 (wordSum data), residue_le (by omega), internetChecksum_toNat data,
    residue_modEq, residue_eq_zero_iff.trans wordSum_eq_zero_iff⟩

/-- There is one. -/
theorem IsInternetChecksum.unique {data : List UInt8} {checksum checksum' : BitVec 16}
    (h : IsInternetChecksum data checksum) (h' : IsInternetChecksum data checksum') :
    checksum = checksum' := by
  obtain ⟨s, hle, hvalue, hmod, hzero⟩ := h
  obtain ⟨s', hle', hvalue', hmod', hzero'⟩ := h'
  have hs := residue_unique hle hmod (hzero.trans wordSum_eq_zero_iff.symm)
  have hs' := residue_unique hle' hmod' (hzero'.trans wordSum_eq_zero_iff.symm)
  rw [← BitVec.toNat_inj, hvalue, hvalue', ← hs, hs']

/-! ### The pseudo-header in front -/

/-- A loop over two byte strings, one after the other, is one loop over both. -/
theorem addBytes_append {before : List UInt8} (h : Even before.length) (sum : BitVec 32)
    (after : List UInt8) :
    addBytes sum (before ++ after) = addBytes (addBytes sum before) after := by
  simp only [addBytes_eq_foldl, words_append h, List.foldl_append]

/-- The pseudo-header and the data behind it. -/
def withPseudoHeader (source destination : Ipv4Address) (protocol : UInt8) (data : List UInt8) :
    List UInt8 :=
  pseudoHeader source destination protocol (BitVec.ofNat 16 data.length) ++ data

/-- The pseudo-header has an even length, so that summing it and then the data is summing the two
in one piece. -/
theorem pseudoSum_eq (source destination : Ipv4Address) (protocol : UInt8) (data : List UInt8) :
    pseudoSum source destination protocol data =
      addBytes 0#32 (withPseudoHeader source destination protocol data) := by
  have heven : Even (pseudoHeader source destination protocol
      (BitVec.ofNat 16 data.length)).length := ⟨6, rfl⟩
  rw [pseudoSum, withPseudoHeader, addBytes_append heven]

theorem tcpChecksumSumIpv4_eq_addBytes (source destination : Ipv4Address) (data : List UInt8) :
    tcpChecksumSumIpv4 source destination data =
      addBytes 0#32 (withPseudoHeader source destination 6 data) := by
  rw [tcpChecksumSumIpv4_eq, pseudoSum_eq]

theorem udpSum_eq_addBytes (source destination : Ipv4Address) (data : List UInt8) :
    addBytes (udpPseudoSum source destination data.length) data =
      addBytes 0#32 (withPseudoHeader source destination 17 data) := by
  rw [udpPseudoSum_eq, pseudoSum_eq]

/-- `tcp_checksum_ipv4` is the Internet checksum over the pseudo-header and the segment, with 0
replaced by 0xFFFF. -/
theorem tcpChecksumIpv4_eq {source destination : Ipv4Address} {data : List UInt8}
    (hmin : 20 ≤ data.length) (hmax : data.length ≤ 65535) :
    tcpChecksumIpv4 source destination data =
      if ipv4Checksum (withPseudoHeader source destination 6 data) = 0#16 then 0xFFFF#16
      else ipv4Checksum (withPseudoHeader source destination 6 data) := by
  have hrange : ¬(data.length < tcpMinHeaderLen ∨ data.length > 65535) := by
    unfold tcpMinHeaderLen
    omega
  rw [tcpChecksumIpv4, if_neg hrange, tcpChecksumSumIpv4_eq_addBytes]
  rfl

/-- A segment is valid where that checksum, over everything with the field in it, is zero. -/
theorem tcpChecksumIpv4Valid_eq {source destination : Ipv4Address} {data : List UInt8}
    (hmin : 20 ≤ data.length) (hmax : data.length ≤ 65535) :
    tcpChecksumIpv4Valid source destination data =
      decide (ipv4Checksum (withPseudoHeader source destination 6 data) = 0#16) := by
  have hrange : ¬(data.length < tcpMinHeaderLen ∨ data.length > 65535) := by
    unfold tcpMinHeaderLen
    omega
  rw [tcpChecksumIpv4Valid, if_neg hrange, tcpChecksumSumIpv4_eq_addBytes]
  rfl

/-- The same for UDP. -/
theorem udpChecksumIpv4_eq {source destination : Ipv4Address} {data : List UInt8}
    (hmin : 8 ≤ data.length) (hmax : data.length ≤ 65535) :
    udpChecksumIpv4 source destination data =
      if ipv4Checksum (withPseudoHeader source destination 17 data) = 0#16 then 0xFFFF#16
      else ipv4Checksum (withPseudoHeader source destination 17 data) := by
  have hrange : ¬(data.length < udpHeaderLen ∨ data.length > 65535) := by
    unfold udpHeaderLen
    omega
  rw [udpChecksumIpv4, if_neg hrange, udpSum_eq_addBytes]
  rfl

/-- A datagram is valid by the same rule, if it has a checksum at all. -/
theorem udpChecksumIpv4Valid_eq {source destination : Ipv4Address} {data : List UInt8}
    (hmin : 8 ≤ data.length) (hfield : udpChecksumField data ≠ 0#16) :
    udpChecksumIpv4Valid source destination data =
      decide (ipv4Checksum (withPseudoHeader source destination 17 data) = 0#16) := by
  have hshort : ¬data.length < udpHeaderLen := Nat.not_lt_of_le hmin
  rw [udpChecksumField_eq hshort] at hfield
  rw [udpChecksumIpv4Valid, dif_neg hshort]
  dsimp only
  rw [if_neg hfield, udpSum_eq_addBytes]
  rfl

/-! ### The accumulator -/

/-- **Step and run.**  Whatever words are added, the accumulator fits into sixteen bits after every
addition. -/
theorem foldl_checksumAdd_le (words : List (BitVec 16)) {sum : BitVec 32}
    (h : sum.toNat ≤ 65535) : (words.foldl checksumAdd sum).toNat ≤ 65535 := by
  induction words generalizing sum with
  | nil => exact h
  | cons value rest ih =>
      have hvalue := value.isLt
      refine ih ?_
      rw [checksumAdd_toNat h]
      exact endAround_le (by omega)

/-- No addition leaves the 32 bits, neither that of a word nor that of the carries. -/
theorem checksumAdd_exact (before : List (BitVec 16)) (value : BitVec 16) :
    (before.foldl checksumAdd 0#32).toNat + value.toNat < 2 ^ 32 := by
  have hle := @foldl_checksumAdd_le before 0#32 (Nat.zero_le _)
  have hvalue := value.isLt
  omega

/-- One fold does not wrap: both halves are below 2^16. -/
theorem fold_exact (sum : BitVec 32) :
    (sum &&& 0xFFFF#32).toNat + (sum >>> 16).toNat < 2 ^ 32 := by
  have hlow : (sum &&& 0xFFFF#32).toNat ≤ 65535 := by
    rw [BitVec.toNat_and]
    exact Nat.and_le_right
  have hhigh : (sum >>> 16).toNat ≤ 65535 := by
    have hsum := sum.isLt
    rw [BitVec.toNat_ushiftRight, Nat.shiftRight_eq_div_pow]
    omega
  omega

/-- **One checksum.**  `ipv4_checksum` and `icmp_checksum` are the Internet checksum; those of TCP
and UDP are `ipv4_checksum` of the pseudo-header and the data, where zero is replaced by `0xFFFF`,
and validity is that this is zero.  Every accumulator is one that words were added to, starting
from zero, and none of the additions overflows. -/
theorem internet_checksums :
    (∀ data, IsInternetChecksum data (ipv4Checksum data) ∧
      IsInternetChecksum data (icmpChecksum data)) ∧
    (∀ source destination (data : List UInt8), 20 ≤ data.length → data.length ≤ 65535 →
      (tcpChecksumIpv4 source destination data =
        if ipv4Checksum (withPseudoHeader source destination 6 data) = 0#16 then 0xFFFF#16
        else ipv4Checksum (withPseudoHeader source destination 6 data)) ∧
      tcpChecksumIpv4Valid source destination data =
        decide (ipv4Checksum (withPseudoHeader source destination 6 data) = 0#16)) ∧
    (∀ source destination (data : List UInt8), 8 ≤ data.length → data.length ≤ 65535 →
      (udpChecksumIpv4 source destination data =
        if ipv4Checksum (withPseudoHeader source destination 17 data) = 0#16 then 0xFFFF#16
        else ipv4Checksum (withPseudoHeader source destination 17 data)) ∧
      (udpChecksumField data ≠ 0#16 → udpChecksumIpv4Valid source destination data =
        decide (ipv4Checksum (withPseudoHeader source destination 17 data) = 0#16))) ∧
    (∀ data, addBytes 0#32 data = (words data).foldl checksumAdd 0#32) ∧
    (∀ source destination data, tcpChecksumSumIpv4 source destination data =
      (words (withPseudoHeader source destination 6 data)).foldl checksumAdd 0#32) ∧
    (∀ source destination data, addBytes (udpPseudoSum source destination data.length) data =
      (words (withPseudoHeader source destination 17 data)).foldl checksumAdd 0#32) ∧
    (∀ (before : List (BitVec 16)) (value : BitVec 16),
      (before.foldl checksumAdd 0#32).toNat + value.toNat < 2 ^ 32) ∧
    ∀ sum : BitVec 32, (sum &&& 0xFFFF#32).toNat + (sum >>> 16).toNat < 2 ^ 32 := by
  refine ⟨fun data => ⟨isInternetChecksum_internetChecksum data,
      isInternetChecksum_internetChecksum data⟩,
    fun source destination data hmin hmax => ⟨tcpChecksumIpv4_eq hmin hmax,
      tcpChecksumIpv4Valid_eq hmin hmax⟩,
    fun source destination data hmin hmax => ⟨udpChecksumIpv4_eq hmin hmax,
      fun hfield => udpChecksumIpv4Valid_eq hmin hfield⟩,
    fun data => addBytes_eq_foldl 0#32 data, fun source destination data => ?_,
    fun source destination data => ?_, checksumAdd_exact, fold_exact⟩
  · rw [tcpChecksumSumIpv4_eq_addBytes, addBytes_eq_foldl]
  · rw [udpSum_eq_addBytes, addBytes_eq_foldl]

/-- The segment of `test_ipv4_checksum`, a SYN from `192.168.50.62` to `93.184.216.34`,
while its checksum field is zero. -/
def testSyn : List UInt8 :=
  [195, 80, 0, 80, 0, 1, 134, 160, 0, 0, 0, 0, 80, 2, 250, 240, 0, 0, 0, 0]

theorem internet_checksums_testSyn :
    tcpChecksumIpv4 ⟨192, 168, 50, 62⟩ ⟨93, 184, 216, 34⟩ testSyn =
        (if ipv4Checksum (withPseudoHeader ⟨192, 168, 50, 62⟩ ⟨93, 184, 216, 34⟩ 6 testSyn) = 0#16
        then 0xFFFF#16
        else ipv4Checksum (withPseudoHeader ⟨192, 168, 50, 62⟩ ⟨93, 184, 216, 34⟩ 6 testSyn)) ∧
      udpChecksumIpv4Valid ⟨192, 168, 50, 62⟩ ⟨93, 184, 216, 34⟩ testSyn = decide
        (ipv4Checksum (withPseudoHeader ⟨192, 168, 50, 62⟩ ⟨93, 184, 216, 34⟩ 17 testSyn) = 0#16) :=
  ⟨(internet_checksums.2.1 _ _ testSyn (by decide) (by decide)).1,
    (internet_checksums.2.2.1 _ _ testSyn (by decide) (by decide)).2 (by decide)⟩

end Netstack
