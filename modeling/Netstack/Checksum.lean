/-
# The Internet checksum

The sums that `ipv4_checksum`, `icmp_checksum`, `tcp_checksum_sum_ipv4` and the functions
of `udp.c` compute over byte strings, two bytes at a time, in a 32-bit accumulator whose
carries are folded back after every addition.

The accumulator is an adder with end-around carry modulo `65535` (`addBytes_toNat`), so
that all of them come down to the plain sum of the words of what is summed (`wordSum`).
-/

import Mathlib.Algebra.Group.Nat.Even
import Mathlib.Algebra.Order.Ring.Nat
import Netstack.Bytes
import Netstack.Library.OnesComplement

namespace Netstack

/-- `checksum_add` of `tcp.c` and `checksum_add_word` of `udp.c`, which `ipv4_checksum` and
`icmp_checksum` write out in their loops. -/
def checksumAdd (sum : BitVec 32) (value : BitVec 16) : BitVec 32 :=
  let sum := sum + value.setWidth 32
  (sum &&& 0xFFFF#32) + (sum >>> 16)

/-- The loop of `checksum_finish`, run at most `fuel` times. -/
def checksumFold : ℕ → BitVec 32 → BitVec 32
  | 0, sum => sum
  | fuel + 1, sum =>
      if sum >>> 16 ≠ 0#32 then checksumFold fuel ((sum &&& 0xFFFF#32) + (sum >>> 16)) else sum

/-- `checksum_finish`.  The loop ends after two rounds (`checksumFold_ends`). -/
def checksumFinish (sum : BitVec 32) : BitVec 16 :=
  (~~~checksumFold 2 sum &&& 0xFFFF#32).setWidth 16

/-- `add_bytes` of `tcp.c`, and the loops of the other three. -/
def addBytes (sum : BitVec 32) : List UInt8 → BitVec 32
  | high :: low :: rest => addBytes (checksumAdd sum (u16Be high low)) rest
  | [last] => checksumAdd sum (last.toBitVec.setWidth 16 <<< 8)
  | [] => sum

/-- The body that `ipv4_checksum` and `icmp_checksum` share. -/
def internetChecksum (data : List UInt8) : BitVec 16 := checksumFinish (addBytes 0#32 data)

/-! ### The words of a byte string -/

/-- The 16-bit words of a byte string, the last one filled up with zero. -/
def words : List UInt8 → List (BitVec 16)
  | high :: low :: rest => u16Be high low :: words rest
  | [last] => [u16Be last 0]
  | [] => []

/-- The plain sum of the words of a byte string. -/
def wordSum (data : List UInt8) : ℕ := ((words data).map BitVec.toNat).sum

/-- The loop over the bytes adds the words that they make up, the last one filled up with a zero
byte. -/
theorem addBytes_eq_foldl (sum : BitVec 32) (data : List UInt8) :
    addBytes sum data = (words data).foldl checksumAdd sum := by
  fun_induction addBytes sum data with
  | case1 sum high low rest ih => rw [ih, words, List.foldl_cons]
  | case2 sum last =>
      have hlast : u16Be last 0 = last.toBitVec.setWidth 16 <<< 8 := by simp [u16Be]
      rw [words, List.foldl_cons, List.foldl_nil, hlast]
  | case3 sum => rfl

/-- Words do not reach over an even position. -/
theorem words_append {before : List UInt8} (h : Even before.length) (after : List UInt8) :
    words (before ++ after) = words before ++ words after := by
  fun_induction words before with
  | case1 high low rest ih =>
      have hrest : Even rest.length := by
        rw [List.length_cons, List.length_cons, Nat.add_assoc] at h
        exact (Nat.even_add.1 h).2 even_two
      rw [List.cons_append, List.cons_append, words, ih hrest, List.cons_append]
  | case2 last => exact absurd h (by simp)
  | case3 => rfl

theorem wordSum_append {before : List UInt8} (h : Even before.length) (after : List UInt8) :
    wordSum (before ++ after) = wordSum before + wordSum after := by
  simp only [wordSum, words_append h, List.map_append, List.sum_append]

@[simp] theorem wordSum_nil : wordSum [] = 0 := rfl

@[simp] theorem wordSum_cons_cons (high low : UInt8) (rest : List UInt8) :
    wordSum (high :: low :: rest) = (u16Be high low).toNat + wordSum rest := by
  simp only [wordSum, words, List.map_cons, List.sum_cons]

@[simp] theorem wordSum_singleton (last : UInt8) : wordSum [last] = last.toNat * 256 := by
  simp only [wordSum, words, List.map_singleton, List.sum_singleton, u16Be_toNat,
    UInt8.toNat_zero, Nat.add_zero]

@[simp] theorem wordSum_writeU16Be (value : BitVec 16) :
    wordSum (writeU16Be value) = value.toNat := by
  rw [writeU16Be, wordSum_cons_cons, u16Be_writeU16Be, wordSum_nil, Nat.add_zero]

/-! ### The accumulator -/

/-- What folding the carries does to the accumulator. -/
theorem fold_toNat (sum : BitVec 32) :
    ((sum &&& 0xFFFF#32) + (sum >>> 16)).toNat = sum.toNat % 65536 + sum.toNat / 65536 := by
  have hlow : (sum &&& 0xFFFF#32).toNat = sum.toNat % 65536 := by
    rw [BitVec.toNat_and]
    exact Nat.and_two_pow_sub_one_eq_mod sum.toNat 16
  have hhigh : (sum >>> 16).toNat = sum.toNat / 65536 := by
    rw [BitVec.toNat_ushiftRight, Nat.shiftRight_eq_div_pow]
  have hsum := sum.isLt
  rw [BitVec.toNat_add, hlow, hhigh]
  exact Nat.mod_eq_of_lt (by omega)

theorem shiftRight_eq_zero_iff (sum : BitVec 32) : sum >>> 16 = 0#32 ↔ sum.toNat < 65536 := by
  rw [← BitVec.toNat_inj, BitVec.toNat_ushiftRight, Nat.shiftRight_eq_div_pow]
  change sum.toNat / 65536 = 0 ↔ _
  omega

/-- Two rounds are enough for every accumulator. -/
theorem checksumFold_ends (sum : BitVec 32) : (checksumFold 2 sum) >>> 16 = 0#32 := by
  have hsum := sum.isLt
  unfold checksumFold
  split
  · have hfirst := fold_toNat sum
    unfold checksumFold
    split
    · have hsecond := fold_toNat ((sum &&& 0xFFFF#32) + (sum >>> 16))
      rw [checksumFold, shiftRight_eq_zero_iff]
      omega
    · exact not_not.1 ‹_›
  · exact not_not.1 ‹_›

/-- The accumulator is an adder with end-around carry, and never overflows. -/
theorem checksumAdd_toNat {sum : BitVec 32} (h : sum.toNat ≤ 65535) (value : BitVec 16) :
    (checksumAdd sum value).toNat = endAroundAdd 65535 sum.toNat value.toNat := by
  have hvalue := value.isLt
  have hsum : (sum + value.setWidth 32).toNat = sum.toNat + value.toNat := by
    rw [BitVec.toNat_add, BitVec.toNat_setWidth, Nat.mod_eq_of_lt (by omega : value.toNat < 2 ^ 32)]
    exact Nat.mod_eq_of_lt (by omega)
  rw [checksumAdd, fold_toNat, hsum]
  rfl

/-- The accumulator holds what stands for the plain sum. -/
theorem checksumAdd_residue {sum : BitVec 32} {n : ℕ} (h : sum.toNat = residue 65535 n)
    (value : BitVec 16) : (checksumAdd sum value).toNat = residue 65535 (n + value.toNat) := by
  have hvalue := value.isLt
  have hle : sum.toNat ≤ 65535 := h ▸ residue_le (by omega)
  rw [checksumAdd_toNat hle, h]
  exact endAroundAdd_residue (by omega) (by omega)

/-- The accumulator is a residue after every word, so that it never exceeds 16 bits and the sum
does not depend on how the carries were folded. -/
theorem addBytes_toNat {sum : BitVec 32} {n : ℕ} (h : sum.toNat = residue 65535 n)
    (data : List UInt8) : (addBytes sum data).toNat = residue 65535 (n + wordSum data) := by
  rw [addBytes_eq_foldl, wordSum]
  induction words data generalizing sum n with
  | nil => exact h
  | cons value rest ih =>
      rw [List.foldl_cons, ih (checksumAdd_residue h value), List.map_cons, List.sum_cons,
        Nat.add_assoc]

/-- The final fold changes nothing in an accumulator that was folded before, and the complement
is the difference to 65535. -/
theorem checksumFinish_toNat {sum : BitVec 32} {n : ℕ} (h : sum.toNat = residue 65535 n) :
    (checksumFinish sum).toNat = 65535 - residue 65535 n := by
  have hle : residue 65535 n ≤ 65535 := residue_le (by omega)
  have hfold : checksumFold 2 sum = sum := by
    unfold checksumFold
    exact if_neg (not_not.2 ((shiftRight_eq_zero_iff sum).2 (by omega)))
  have hmask : (~~~sum &&& 0xFFFF#32).toNat = (~~~sum).toNat % 65536 := by
    rw [BitVec.toNat_and]
    exact Nat.and_two_pow_sub_one_eq_mod _ 16
  rw [checksumFinish, hfold, BitVec.toNat_setWidth, hmask, BitVec.toNat_not]
  omega

/-- A checksum over everything is zero where the sum is balanced: this is how a receiver
verifies. -/
theorem checksumFinish_eq_zero_iff {sum : BitVec 32} {n : ℕ} (h : sum.toNat = residue 65535 n) :
    checksumFinish sum = 0#16 ↔ Balanced 65535 n := by
  have hle : residue 65535 n ≤ 65535 := residue_le (by omega)
  rw [← residue_eq_modulus_iff (by omega), ← BitVec.toNat_inj, checksumFinish_toNat h]
  change 65535 - residue 65535 n = 0 ↔ _
  omega

/-- The checksum of a sum balances it. -/
theorem balanced_checksumFinish {sum : BitVec 32} {n : ℕ} (h : sum.toNat = residue 65535 n) :
    Balanced 65535 (n + (checksumFinish sum).toNat) := by
  rw [checksumFinish_toNat h]
  exact balanced_add_complement (by omega)

/-- It still does when zero is replaced by the other zero, as TCP and UDP do. -/
theorem balanced_checksumFinish_or {sum : BitVec 32} {n : ℕ} (h : sum.toNat = residue 65535 n) :
    Balanced 65535
      (n + (if checksumFinish sum = 0#16 then 0xFFFF#16 else checksumFinish sum).toNat) := by
  have hfinish := balanced_checksumFinish h
  split_ifs with hzero
  · rw [hzero] at hfinish
    exact Balanced.add_modulus hfinish
  · exact hfinish

theorem sum_toNat (data : List UInt8) :
    (addBytes 0#32 data).toNat = residue 65535 (wordSum data) := by
  have hstart : (0#32).toNat = residue 65535 0 := rfl
  rw [addBytes_toNat hstart, Nat.zero_add]

theorem internetChecksum_eq_zero_iff {data : List UInt8} :
    internetChecksum data = 0#16 ↔ Balanced 65535 (wordSum data) :=
  checksumFinish_eq_zero_iff (sum_toNat data)

theorem balanced_internetChecksum (data : List UInt8) :
    Balanced 65535 (wordSum data + (internetChecksum data).toNat) :=
  balanced_checksumFinish (sum_toNat data)

theorem internetChecksum_toNat (data : List UInt8) :
    (internetChecksum data).toNat = 65535 - residue 65535 (wordSum data) :=
  checksumFinish_toNat (sum_toNat data)

/-- The checksum is 0xFFFF for zeros only. -/
theorem internetChecksum_eq_max_iff {data : List UInt8} :
    internetChecksum data = 0xFFFF#16 ↔ wordSum data = 0 := by
  have hle : residue 65535 (wordSum data) ≤ 65535 := residue_le (by omega)
  rw [← residue_eq_zero_iff (m := 65535), ← BitVec.toNat_inj, internetChecksum_toNat]
  change 65535 - residue 65535 (wordSum data) = 65535 ↔ _
  omega

/-- The checksum is the field that balances the sum already, up to the representation of zero. -/
theorem internetChecksum_of_balanced {data : List UInt8} {field : BitVec 16}
    (h : Balanced 65535 (wordSum data + field.toNat)) :
    internetChecksum data =
      if field = 0xFFFF#16 ∧ wordSum data ≠ 0 then 0x0000#16 else field := by
  have hfield := field.isLt
  have hcomplement := h.complement_eq (by omega) (by omega)
  have hmax : field = 0xFFFF#16 ↔ field.toNat = 65535 := (BitVec.toNat_inj).symm
  rw [← BitVec.toNat_inj, internetChecksum_toNat, hcomplement]
  simp only [hmax]
  split_ifs <;> rfl

/-- Only zeros add up to zero. -/
theorem wordSum_eq_zero_iff {data : List UInt8} : wordSum data = 0 ↔ ∀ b ∈ data, b = 0 := by
  fun_induction words data with
  | case1 high low rest ih =>
      have hword : (u16Be high low).toNat = 0 ↔ high = 0 ∧ low = 0 := by
        rw [u16Be_toNat, ← UInt8.toNat_inj, ← UInt8.toNat_inj, UInt8.toNat_zero]
        omega
      rw [wordSum_cons_cons, Nat.add_eq_zero_iff, hword, ih]
      simp [and_assoc]
  | case2 last =>
      rw [wordSum_singleton, List.forall_mem_singleton, ← UInt8.toNat_inj, UInt8.toNat_zero]
      omega
  | case3 => simp

/-- A checksum field at an even position adds its value to the sum. -/
theorem wordSum_field {before : List UInt8} (h : Even before.length) (value : BitVec 16)
    (after : List UInt8) : wordSum (before ++ writeU16Be value ++ after) =
      wordSum (before ++ writeU16Be 0#16 ++ after) + value.toNat := by
  have hsplit : ∀ word : BitVec 16, wordSum (before ++ writeU16Be word ++ after) =
      wordSum before + word.toNat + wordSum after := by
    intro word
    have hfield : Even (before ++ writeU16Be word).length := by
      rw [List.length_append, length_writeU16Be]
      exact h.add even_two
    rw [wordSum_append hfield, wordSum_append h, wordSum_writeU16Be]
  rw [hsplit, hsplit, BitVec.toNat_ofNat]
  omega

/-! ### The pseudo-header -/

/-- The bytes of an IPv4 address, `uint8_t [IPV4_ADDR_LEN]`. -/
structure Ipv4Address where
  first : UInt8
  second : UInt8
  third : UInt8
  fourth : UInt8
deriving DecidableEq, Repr

/-- The bytes of an address as `memcpy` takes them. -/
def Ipv4Address.bytes (address : Ipv4Address) : List UInt8 :=
  [address.first, address.second, address.third, address.fourth]

/-- The pseudo-header in front of a TCP segment or a UDP datagram: the addresses, a zero and the
protocol number, and the length. -/
def pseudoHeader (source destination : Ipv4Address) (protocol : UInt8) (len : BitVec 16) :
    List UInt8 :=
  source.bytes ++ destination.bytes ++ [0, protocol] ++ writeU16Be len

/-- What a checksum over the pseudo-header and the data is computed from. -/
def covered (source destination : Ipv4Address) (protocol : UInt8) (data : List UInt8) : ℕ :=
  wordSum (pseudoHeader source destination protocol (BitVec.ofNat 16 data.length)) + wordSum data

/-- The sum over the pseudo-header and the data. -/
def pseudoSum (source destination : Ipv4Address) (protocol : UInt8) (data : List UInt8) :
    BitVec 32 :=
  addBytes (addBytes 0#32
    (pseudoHeader source destination protocol (BitVec.ofNat 16 data.length))) data

/-- What the sum with a pseudo-header covers. -/
theorem pseudoSum_toNat (source destination : Ipv4Address) (protocol : UInt8)
    (data : List UInt8) : (pseudoSum source destination protocol data).toNat =
      residue 65535 (covered source destination protocol data) := by
  have hheader := sum_toNat
    (pseudoHeader source destination protocol (BitVec.ofNat 16 data.length))
  exact addBytes_toNat hheader data

/-! ### Replacing a word -/

/-- One of the words is `0x0000` and the other is `0xFFFF`, the two representations of zero. -/
def Exchange (word word' : BitVec 16) : Prop :=
  word = 0x0000#16 ∧ word' = 0xFFFF#16 ∨ word = 0xFFFF#16 ∧ word' = 0x0000#16

/-- The second byte string is the first one with the aligned word at a position, or the last
byte of an odd number of them, replaced by a different one. -/
inductive Tampered : ℕ → List UInt8 → List UInt8 → Prop
  | word {before after : List UInt8} {high low high' low' : UInt8} (aligned : Even before.length)
      (differ : u16Be high low ≠ u16Be high' low')
      (noExchange : ¬Exchange (u16Be high low) (u16Be high' low')) :
      Tampered before.length (before ++ high :: low :: after) (before ++ high' :: low' :: after)
  | byte {before : List UInt8} {last last' : UInt8} (aligned : Even before.length)
      (differ : last ≠ last') :
      Tampered before.length (before ++ [last]) (before ++ [last'])

variable {i : ℕ} {data data' : List UInt8}

theorem Tampered.length_eq (h : Tampered i data data') : data'.length = data.length := by
  cases h <;> simp

theorem Tampered.even (h : Tampered i data data') : Even i := by
  cases h with
  | word aligned => exact aligned
  | byte aligned => exact aligned

/-- The other bytes are left. -/
theorem Tampered.getElem?_eq (h : Tampered i data data') {j : ℕ} (hj : j ≠ i)
    (hj' : j ≠ i + 1) : data'[j]? = data[j]? := by
  cases h with
  | @word before after high low high' low' aligned differ noExchange =>
      rcases Nat.lt_or_gt_of_ne hj with hlt | hgt
      · rw [List.getElem?_append_left hlt, List.getElem?_append_left hlt]
      · obtain ⟨k, rfl⟩ : ∃ k, j = before.length + (k + 2) := ⟨j - before.length - 2, by omega⟩
        rw [List.getElem?_append_right (by omega), List.getElem?_append_right (by omega),
          Nat.add_sub_cancel_left]
        rfl
  | @byte before last last' aligned differ =>
      rcases Nat.lt_or_gt_of_ne hj with hlt | hgt
      · rw [List.getElem?_append_left hlt, List.getElem?_append_left hlt]
      · have hlen : ∀ b : UInt8, (before ++ [b]).length ≤ j := by
          intro b
          rwa [List.length_append, List.length_singleton]
        rw [List.getElem?_eq_none (hlen last'), List.getElem?_eq_none (hlen last)]

/-- A replaced word in an initial part of even length is one of that part. -/
theorem Tampered.take (h : Tampered i data data') {k : ℕ} (hk : Even k) (hle : k ≤ data.length)
    (hi : i < k) : Tampered i (data.take k) (data'.take k) := by
  have hbound : i + 2 ≤ k := by
    obtain ⟨m, rfl⟩ := h.even
    obtain ⟨n, rfl⟩ := hk
    omega
  cases h with
  | @word before after high low high' low' aligned differ noExchange =>
      obtain ⟨n, rfl⟩ : ∃ n, k = before.length + (n + 2) := ⟨k - before.length - 2, by omega⟩
      rw [List.take_length_add_append, List.take_length_add_append]
      exact .word aligned differ noExchange
  | @byte before last last' aligned differ =>
      rw [List.length_append, List.length_singleton] at hle
      omega

/-- **A replaced word unbalances the sum**, whatever else is added. -/
theorem Tampered.not_balanced (h : Tampered i data data') {n : ℕ}
    (hbalanced : Balanced 65535 (n + wordSum data)) : ¬Balanced 65535 (n + wordSum data') := by
  intro hbalanced'
  cases h with
  | @word before after high low high' low' aligned differ noExchange =>
      have hsplit : ∀ a b : UInt8, n + wordSum (before ++ a :: b :: after) =
          n + wordSum before + wordSum after + (u16Be a b).toNat := by
        intro a b
        rw [wordSum_append aligned, wordSum_cons_cons]
        omega
      rw [hsplit] at hbalanced hbalanced'
      have hhigh := (u16Be high low).isLt
      have hhigh' := (u16Be high' low').isLt
      rcases hbalanced.eq_or_exchange hbalanced' (by omega) (by omega) with heq | ⟨h₀, h₁⟩ | ⟨h₁, h₀⟩
      · exact differ (BitVec.toNat_inj.1 heq)
      · exact noExchange (.inl ⟨BitVec.toNat_inj.1 h₀, BitVec.toNat_inj.1 h₁⟩)
      · exact noExchange (.inr ⟨BitVec.toNat_inj.1 h₁, BitVec.toNat_inj.1 h₀⟩)
  | @byte before last last' aligned differ =>
      rw [wordSum_append aligned, wordSum_singleton, ← Nat.add_assoc] at hbalanced hbalanced'
      have hlast := last.toNat_lt
      have hlast' := last'.toNat_lt
      rcases hbalanced.eq_or_exchange hbalanced' (by omega) (by omega) with heq | hzero | hzero
      · exact differ (UInt8.toNat_inj.1 (by omega))
      · omega
      · omega

/-- A replaced word shows in the checksum of what had the checksum zero. -/
theorem Tampered.internetChecksum_ne_zero {i : ℕ} {data data' : List UInt8}
    (h : Tampered i data data') (hzero : internetChecksum data = 0#16) :
    internetChecksum data' ≠ 0#16 := by
  rw [internetChecksum_eq_zero_iff, ← Nat.zero_add (wordSum data)] at hzero
  rw [Ne, internetChecksum_eq_zero_iff, ← Nat.zero_add (wordSum data')]
  exact h.not_balanced hzero

/-- The pseudo-header is the same for as many bytes. -/
theorem Tampered.not_balanced_covered (h : Tampered i data data')
    {source destination : Ipv4Address} {protocol : UInt8}
    (hbalanced : Balanced 65535 (covered source destination protocol data)) :
    ¬Balanced 65535 (covered source destination protocol data') := by
  unfold covered at *
  rw [h.length_eq]
  exact h.not_balanced hbalanced

end Netstack
