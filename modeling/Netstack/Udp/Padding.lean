/-
# Bytes behind a datagram

`udp_parse` reads as many bytes as the length field says and leaves the rest.
`udp_checksum_ipv4_valid` sums up all the bytes it is given and puts their number into the
pseudo-header, although the receive path gives it the whole IPv4 payload.

The bytes behind a datagram change the verdict unless they, and what they add to the
length, come to a multiple of `65535` (`trailing_valid_iff`); zeros never do
(`udpChecksumIpv4Valid_zeros`).
-/

import Netstack.Udp.Datagram

namespace Netstack

variable {source destination : Ipv4Address} {data before after : List UInt8}

/-- What bytes add to the words of those before them.  Behind an odd number of bytes, the first one
fills up the last word. -/
def trailingSum (before after : List UInt8) : ℕ :=
  if Even before.length then wordSum after else wordSum (0 :: after)

/-- A byte in front counts in the high half of its word. -/
theorem wordSum_cons (b : UInt8) (rest : List UInt8) :
    wordSum (b :: rest) = b.toNat * 256 + wordSum (0 :: rest) := by
  cases rest with
  | nil => simp
  | cons low rest =>
      rw [wordSum_cons_cons, wordSum_cons_cons, u16Be_toNat, u16Be_toNat, UInt8.toNat_zero]
      omega

/-- Bytes behind a text of odd length complete its last word, which is why the sum is not just
added. -/
theorem wordSum_append_trailing (before after : List UInt8) :
    wordSum (before ++ after) = wordSum before + trailingSum before after := by
  fun_induction words before with
  | case1 high low rest ih =>
      have hsum : trailingSum (high :: low :: rest) after = trailingSum rest after := by
        simp [trailingSum, Nat.even_add_one]
      rw [hsum, List.cons_append, List.cons_append, wordSum_cons_cons, wordSum_cons_cons, ih,
        Nat.add_assoc]
  | case2 last =>
      have hodd : ¬Even [last].length := by simp
      rw [trailingSum, if_neg hodd, wordSum_singleton, ← wordSum_cons]
      rfl
  | case3 => simp [trailingSum]

/-- What the pseudo-header adds besides the length. -/
def addressSum (source destination : Ipv4Address) (protocol : UInt8) : ℕ :=
  wordSum (source.bytes ++ destination.bytes ++ [0, protocol])

/-- What the sum covers: the addresses and the protocol, the length, and the bytes. -/
theorem covered_eq (protocol : UInt8) (data : List UInt8) :
    covered source destination protocol data =
      addressSum source destination protocol + data.length % 65536 + wordSum data := by
  have heven : Even (source.bytes ++ destination.bytes ++ [0, protocol]).length := ⟨5, rfl⟩
  rw [covered, pseudoHeader, wordSum_append heven, wordSum_writeU16Be, BitVec.toNat_ofNat]
  rfl

/-- The protocol number keeps the sum from being zero. -/
theorem addressSum_pos : 0 < addressSum source destination 17 := by
  refine Nat.pos_of_ne_zero fun hzero => ?_
  have hprotocol : (17 : UInt8) = 0 := wordSum_eq_zero_iff.1 hzero 17 (by simp)
  exact absurd hprotocol (by decide)

/-- The sum is never zero, because the protocol is in it: so it is balanced where 65535 divides
it. -/
theorem balanced_covered_iff : Balanced 65535 (covered source destination 17 data) ↔
    65535 ∣ covered source destination 17 data := by
  have hpos := @addressSum_pos source destination
  refine and_iff_right ?_
  rw [covered_eq]
  omega

/-- Bytes that a sum does not notice, nor their number in the pseudo-header. -/
def Absorbed (before after : List UInt8) : Prop :=
  (before.length + after.length) % 65536 + trailingSum before after ≡ before.length [MOD 65535]

/-- The condition on the bytes behind a datagram as arithmetic: their number counts in the length
of the pseudo-header, and their words in the sum. -/
theorem absorbed_iff (h : before.length + after.length ≤ 65535) :
    Absorbed before after ↔ 65535 ∣ after.length + trailingSum before after := by
  have hshift : before.length + (after.length + trailingSum before after) ≡
      before.length + 0 [MOD 65535] ↔ after.length + trailingSum before after ≡ 0 [MOD 65535] :=
    ⟨Nat.ModEq.add_left_cancel' _, Nat.ModEq.add_left _⟩
  rw [Absorbed, Nat.mod_eq_of_lt (by omega), Nat.add_assoc, ← Nat.modEq_zero_iff_dvd]
  exact hshift

/-- Absorbed bytes keep the sum in its class, and no others do. -/
theorem absorbed_iff_covered (hbefore : before.length ≤ 65535) : Absorbed before after ↔
    covered source destination 17 (before ++ after) ≡
      covered source destination 17 before [MOD 65535] := by
  have hleft : covered source destination 17 (before ++ after) =
      addressSum source destination 17 + wordSum before +
        ((before.length + after.length) % 65536 + trailingSum before after) := by
    rw [covered_eq, wordSum_append_trailing, List.length_append]
    omega
  have hright : covered source destination 17 before =
      addressSum source destination 17 + wordSum before + before.length := by
    rw [covered_eq, Nat.mod_eq_of_lt (by omega)]
    omega
  rw [hleft, hright]
  exact ⟨Nat.ModEq.add_left _, Nat.ModEq.add_left_cancel' _⟩

theorem udpChecksumField_append (hlen : 8 ≤ before.length) :
    udpChecksumField (before ++ after) = udpChecksumField before := by
  simp only [udpChecksumField, List.getD_eq_getElem?_getD]
  rw [List.getElem?_append_left (by omega), List.getElem?_append_left (by omega)]

/-- **When the verdict is the same** with the bytes behind and without them. -/
theorem udpChecksumIpv4Valid_append_eq_iff (hmin : 8 ≤ before.length)
    (hmax : before.length ≤ 65535) :
    udpChecksumIpv4Valid source destination (before ++ after) =
        udpChecksumIpv4Valid source destination before ↔
      udpChecksumField before = 0#16 ∨ Absorbed before after ∨
        ¬65535 ∣ covered source destination 17 before ∧
          ¬65535 ∣ covered source destination 17 (before ++ after) := by
  have hlen : 8 ≤ (before ++ after).length := by
    rw [List.length_append]
    omega
  rw [Bool.eq_iff_iff, udpChecksumIpv4Valid_iff, udpChecksumIpv4Valid_iff, and_iff_right hlen,
    and_iff_right hmin, udpChecksumField_append hmin, balanced_covered_iff, balanced_covered_iff,
    @absorbed_iff_covered source destination _ _ hmax]
  by_cases hfield : udpChecksumField before = 0#16
  · simp only [hfield, true_or]
  · simp only [hfield, false_or]
    constructor
    · intro hiff
      by_cases hdvd : 65535 ∣ covered source destination 17 before
      · exact .inl (((Nat.modEq_zero_iff_dvd).2 (hiff.2 hdvd)).trans
          ((Nat.modEq_zero_iff_dvd).2 hdvd).symm)
      · exact .inr ⟨hdvd, fun h => hdvd (hiff.1 h)⟩
    · rintro (hmod | ⟨hbefore, happend⟩)
      · exact hmod.dvd_iff (Nat.dvd_refl 65535)
      · exact ⟨fun h => absurd h happend, fun h => absurd h hbefore⟩

/-! ### Datagrams that were sent -/

/-- What is sent is parsed, whatever is behind it. -/
theorem udpParse_sent {packet : UdpPacket} {bufferLen : ℕ} {u : List UInt8}
    (h : udpSerializeIpv4 packet source destination bufferLen = some u) (t : List UInt8) :
    ∃ parsed, udpParse u = .ok parsed ∧ udpParse (u ++ t) = .ok parsed := by
  have hexact := udpParse_udpSerializeIpv4 h []
  rw [List.append_nil] at hexact
  exact ⟨_, hexact, udpParse_udpSerializeIpv4 h t⟩

/-- **When a datagram that was sent stays valid** with bytes behind it. -/
theorem trailing_valid_iff {packet : UdpPacket} {bufferLen : ℕ} {u t : List UInt8}
    (h : udpSerializeIpv4 packet source destination bufferLen = some u)
    (hmax : u.length + t.length ≤ 65535) :
    udpChecksumIpv4Valid source destination (u ++ t) = true ↔
      65535 ∣ t.length + trailingSum u t := by
  obtain ⟨hvalid, hfield⟩ := udpSerializeIpv4_valid h
  obtain ⟨hmin, hbalanced⟩ := udpChecksumIpv4Valid_iff.1 hvalid
  have hdvd := balanced_covered_iff.1 (hbalanced.resolve_left hfield)
  rw [← absorbed_iff hmax, ← hvalid, udpChecksumIpv4Valid_append_eq_iff hmin (by omega)]
  simp only [hfield, hdvd, not_true, false_and, or_false, false_or]

/-- **Zeros behind a datagram invalidate it**: they count in the length. -/
theorem udpChecksumIpv4Valid_zeros {packet : UdpPacket} {bufferLen n : ℕ} {u : List UInt8}
    (h : udpSerializeIpv4 packet source destination bufferLen = some u)
    (hmax : u.length + n ≤ 65535) :
    udpChecksumIpv4Valid source destination (u ++ List.replicate n 0) = true ↔ n = 0 := by
  have hzeros : trailingSum u (List.replicate n 0) = 0 := by
    unfold trailingSum
    split_ifs
    · exact wordSum_eq_zero_iff.2 fun b hb => List.eq_of_mem_replicate hb
    · exact wordSum_eq_zero_iff.2 fun b hb => by
        rcases List.mem_cons.1 hb with rfl | hb
        · rfl
        · exact List.eq_of_mem_replicate hb
  have hlen : (List.replicate n (0 : UInt8)).length = n := List.length_replicate
  obtain ⟨hmin, -⟩ := udpChecksumIpv4Valid_iff.1 (udpSerializeIpv4_valid h).1
  rw [trailing_valid_iff h (by omega), hzeros, hlen]
  constructor
  · intro hdvd
    by_contra hn
    have hle := Nat.le_of_dvd (Nat.pos_of_ne_zero hn) hdvd
    omega
  · rintro rfl
    exact Nat.dvd_zero _

/-- The validator and the parser agree on what a datagram is exactly when the bytes behind it do
not show in the sum. -/
theorem udp_validator_agrees_iff (source destination : Ipv4Address) :
    (∀ (packet : UdpPacket) (bufferLen : ℕ) (u t : List UInt8),
      udpSerializeIpv4 packet source destination bufferLen = some u →
      u.length + t.length ≤ 65515 →
      ((∃ parsed, udpParse u = .ok parsed ∧ udpParse (u ++ t) = .ok parsed) ∧
          udpChecksumIpv4Valid source destination u = true ∧
          udpChecksumIpv4Valid source destination (u ++ t) = true ↔
        65535 ∣ t.length + trailingSum u t)) ∧
    ∀ (data : List UInt8) (packet : UdpPacket), udpParse data = .ok packet →
      (udpChecksumIpv4Valid source destination data =
          udpChecksumIpv4Valid source destination (data.take packet.length.toNat) ↔
        udpChecksumField data = 0#16 ∨
          Absorbed (data.take packet.length.toNat) (data.drop packet.length.toNat) ∨
          ¬65535 ∣ covered source destination 17 (data.take packet.length.toNat) ∧
            ¬65535 ∣ covered source destination 17 data) := by
  refine ⟨fun packet bufferLen u t h hmax => ?_, fun data packet h => ?_⟩
  · rw [and_iff_right (udpParse_sent h t), and_iff_right (udpSerializeIpv4_valid h).1]
    exact trailing_valid_iff h (by omega)
  · obtain ⟨hlength, hprefix⟩ := udpParse_eq_ok_iff.1 h
    have hle := hprefix.length_le
    rw [packet.length_imageWith] at hle
    have hmax := packet.length.isLt
    have htake : (data.take packet.length.toNat).length = packet.length.toNat := by
      rw [List.length_take]
      omega
    have hagree := @udpChecksumIpv4Valid_append_eq_iff source destination
      (data.take packet.length.toNat) (data.drop packet.length.toNat) (by omega) (by omega)
    have hfield := @udpChecksumField_append (data.take packet.length.toNat)
      (data.drop packet.length.toNat) (by omega)
    rwa [← hfield, List.take_append_drop] at hagree

/-- The datagram of `test_ipv4_checksum`. -/
def testDatagram : UdpPacket where
  sourcePort := 50000
  destinationPort := 53
  length := 11
  checksum := 0
  payload := [68, 78, 83]
  payload_le := by decide

/-- Its bytes, sent from `192.168.50.62` to `8.8.8.8`. -/
def testDatagramBytes : List UInt8 := [195, 80, 0, 53, 0, 11, 162, 13, 68, 78, 83]

/-- The datagram is valid, and with one zero behind it no longer is. -/
theorem testDatagram_padded :
    udpSerializeIpv4 testDatagram ⟨192, 168, 50, 62⟩ ⟨8, 8, 8, 8⟩ 64 = some testDatagramBytes ∧
      testDatagramBytes.length + [(0 : UInt8)].length ≤ 65515 ∧
      udpParse (testDatagramBytes ++ [0]) = udpParse testDatagramBytes ∧
      udpChecksumIpv4Valid ⟨192, 168, 50, 62⟩ ⟨8, 8, 8, 8⟩ testDatagramBytes = true ∧
      udpChecksumIpv4Valid ⟨192, 168, 50, 62⟩ ⟨8, 8, 8, 8⟩ (testDatagramBytes ++ [0]) = false := by
  decide +kernel

/-- The sum does not notice `0xFFFC` behind an odd number of bytes and a zero, as the length grows
by three. -/
theorem udp_validator_agrees_testDatagram :
    ((∃ parsed, udpParse testDatagramBytes = .ok parsed ∧
          udpParse (testDatagramBytes ++ [0, 255, 252]) = .ok parsed) ∧
        udpChecksumIpv4Valid ⟨192, 168, 50, 62⟩ ⟨8, 8, 8, 8⟩ testDatagramBytes = true ∧
        udpChecksumIpv4Valid ⟨192, 168, 50, 62⟩ ⟨8, 8, 8, 8⟩
          (testDatagramBytes ++ [0, 255, 252]) = true) ∧
    (udpChecksumIpv4Valid ⟨192, 168, 50, 62⟩ ⟨8, 8, 8, 8⟩ (testDatagramBytes ++ [0]) =
        udpChecksumIpv4Valid ⟨192, 168, 50, 62⟩ ⟨8, 8, 8, 8⟩
          ((testDatagramBytes ++ [0]).take 11) ↔
      udpChecksumField (testDatagramBytes ++ [0]) = 0#16 ∨
        Absorbed ((testDatagramBytes ++ [0]).take 11) ((testDatagramBytes ++ [0]).drop 11) ∨
        ¬65535 ∣ covered ⟨192, 168, 50, 62⟩ ⟨8, 8, 8, 8⟩ 17 ((testDatagramBytes ++ [0]).take 11) ∧
          ¬65535 ∣ covered ⟨192, 168, 50, 62⟩ ⟨8, 8, 8, 8⟩ 17 (testDatagramBytes ++ [0])) :=
  ⟨((udp_validator_agrees_iff ⟨192, 168, 50, 62⟩ ⟨8, 8, 8, 8⟩).1 testDatagram 64
      testDatagramBytes [0, 255, 252] (by decide +kernel) (by decide)).2 (by decide +kernel),
    (udp_validator_agrees_iff ⟨192, 168, 50, 62⟩ ⟨8, 8, 8, 8⟩).2 (testDatagramBytes ++ [0])
      { testDatagram with checksum := 0xA20D } (by decide +kernel)⟩

end Netstack
