/-
# One's-complement sums

An adder with end-around carry works on the numbers `0 .. m`, of which `0` and `m` both
stand for zero: what leaves the word on the left is added again on the right.  The sum it
holds is determined by the plain sum of what was added: zero as long as nothing but zeros
were added, and otherwise the number of `1 .. m` that is congruent to the plain sum modulo
`m` (`residue`).  A sum is balanced when the adder ends in `m`.

A checksum is the one number that balances a sum, up to the two representations of zero;
and of two sums that differ in one number, at most one is balanced, unless the two numbers
are these two representations.
-/

import Mathlib.Data.Int.ModEq
import Mathlib.Tactic.Common

namespace Netstack

variable {m n w w' : ℕ}

/-- The number that stands for `n` in an adder with end-around carry. -/
def residue (m n : ℕ) : ℕ := if n = 0 then 0 else (n - 1) % m + 1

/-- One addition with end-around carry. -/
def endAroundAdd (m s w : ℕ) : ℕ := (s + w) % (m + 1) + (s + w) / (m + 1)

/-- The adder ends in `m`: something was added, and it adds up to zero. -/
def Balanced (m n : ℕ) : Prop := n ≠ 0 ∧ m ∣ n

@[simp] theorem residue_zero (m : ℕ) : residue m 0 = 0 := rfl

theorem residue_of_ne_zero (h : n ≠ 0) : residue m n = (n - 1) % m + 1 := if_neg h

/-- Only zero has the residue zero: a sum that is a multiple of the modulus keeps the modulus
itself, the other zero. -/
theorem residue_eq_zero_iff : residue m n = 0 ↔ n = 0 := by
  constructor
  · intro h
    by_contra hn
    rw [residue_of_ne_zero hn] at h
    omega
  · rintro rfl
    rfl

/-- A residue fits into the modulus. -/
theorem residue_le (hm : 0 < m) : residue m n ≤ m := by
  rcases Nat.eq_zero_or_pos n with rfl | hn
  · exact Nat.zero_le m
  · rw [residue_of_ne_zero hn.ne']
    exact Nat.mod_lt _ hm

/-- A residue is congruent to the sum. -/
theorem residue_modEq : residue m n ≡ n [MOD m] := by
  rcases Nat.eq_zero_or_pos n with rfl | hn
  · rfl
  · rw [residue_of_ne_zero hn.ne']
    have h : (n - 1) % m + 1 ≡ n - 1 + 1 [MOD m] := (Nat.mod_modEq (n - 1) m).add_right 1
    rwa [Nat.sub_add_cancel hn] at h

/-- The residue is the only number up to `m` of its class that vanishes with `n`. -/
theorem residue_unique {r : ℕ} (hle : r ≤ m) (hmod : r ≡ n [MOD m]) (hzero : r = 0 ↔ n = 0) :
    residue m n = r := by
  rcases Nat.eq_zero_or_pos n with rfl | hn
  · exact (hzero.2 rfl).symm
  · have hr : 0 < r := Nat.pos_of_ne_zero fun h => hn.ne' (hzero.1 h)
    have hpred : n - 1 ≡ r - 1 [MOD m] := by
      apply Nat.ModEq.add_right_cancel' 1
      rw [Nat.sub_add_cancel hn, Nat.sub_add_cancel hr]
      exact hmod.symm
    rw [residue_of_ne_zero hn.ne', hpred, Nat.mod_eq_of_lt (by omega)]
    omega

/-- Folding the carry back keeps the class of the sum. -/
theorem endAround_modEq (s : ℕ) : s % (m + 1) + s / (m + 1) ≡ s [MOD m] := by
  have hs : s = s % (m + 1) + s / (m + 1) + m * (s / (m + 1)) := by
    have hdiv := Nat.mod_add_div s (m + 1)
    rw [Nat.add_mul, Nat.one_mul] at hdiv
    omega
  calc s % (m + 1) + s / (m + 1)
      ≡ s % (m + 1) + s / (m + 1) + m * (s / (m + 1)) [MOD m] := by simp [Nat.ModEq]
    _ = s := hs.symm

/-- Adding the carry back makes zero of zero only. -/
theorem endAround_eq_zero_iff {s : ℕ} : s % (m + 1) + s / (m + 1) = 0 ↔ s = 0 := by
  constructor
  · intro h
    have hdiv := Nat.mod_add_div s (m + 1)
    obtain ⟨hmod, hquot⟩ := Nat.add_eq_zero_iff.1 h
    rwa [hmod, hquot, Nat.mul_zero, eq_comm] at hdiv
  · rintro rfl
    simp

/-- One carry at most leaves the word, and adding it does not carry again. -/
theorem endAround_le {s : ℕ} (hs : s ≤ 2 * m) : s % (m + 1) + s / (m + 1) ≤ m := by
  rcases Nat.lt_or_ge s (m + 1) with hlt | hge
  · rw [Nat.mod_eq_of_lt hlt, Nat.div_eq_of_lt hlt]
    omega
  · have hquot : s / (m + 1) = 1 := Nat.div_eq_of_lt_le (by omega) (by omega)
    have hdiv := Nat.mod_add_div s (m + 1)
    rw [hquot] at hdiv ⊢
    omega

/-- **Step.**  Adding a word to the adder adds it to the plain sum. -/
theorem endAroundAdd_residue (hm : 0 < m) (hw : w ≤ m) :
    endAroundAdd m (residue m n) w = residue m (n + w) := by
  have hle := residue_le (n := n) hm
  refine (residue_unique (endAround_le (by omega)) ?_ ?_).symm
  · exact (endAround_modEq _).trans (residue_modEq.add_right w)
  · rw [endAround_eq_zero_iff, Nat.add_eq_zero_iff, residue_eq_zero_iff, Nat.add_eq_zero_iff]

/-- The residue is the modulus where the sum is balanced, that is a multiple of it but not zero.
-/
theorem residue_eq_modulus_iff (hm : 0 < m) : residue m n = m ↔ Balanced m n := by
  constructor
  · intro h
    have hmod : residue m n ≡ n [MOD m] := residue_modEq
    rw [h] at hmod
    exact ⟨fun hn => by rw [hn, residue_zero] at h; omega,
      (Nat.modEq_zero_iff_dvd).1 (hmod.symm.trans (by simp [Nat.ModEq]))⟩
  · rintro ⟨hn, hdvd⟩
    refine residue_unique le_rfl ?_ ⟨fun h => absurd h hm.ne', fun h => absurd h hn⟩
    exact (by simp [Nat.ModEq] : m ≡ 0 [MOD m]).trans ((Nat.modEq_zero_iff_dvd).2 hdvd).symm

/-! ### Checksums -/

/-- The complement of what the adder holds balances the sum. -/
theorem balanced_add_complement (hm : 0 < m) : Balanced m (n + (m - residue m n)) := by
  have hle := residue_le (n := n) hm
  refine ⟨fun h => ?_, ?_⟩
  · have hn : n = 0 := by omega
    rw [hn, residue_zero] at h
    omega
  · have hmod : n + (m - residue m n) ≡ residue m n + (m - residue m n) [MOD m] :=
      residue_modEq.symm.add_right _
    rw [Nat.add_sub_cancel' hle] at hmod
    exact (Nat.modEq_zero_iff_dvd).1 (hmod.trans (by simp [Nat.ModEq]))

/-- A sum is as balanced with the one zero as with the other. -/
theorem Balanced.add_modulus (h : Balanced m n) : Balanced m (n + m) :=
  ⟨fun hn => h.1 (Nat.add_eq_zero_iff.1 hn).1, Nat.dvd_add h.2 (Nat.dvd_refl m)⟩

/-- **Detection.**  Two numbers that balance the same sum are equal, or they are the two
representations of zero. -/
theorem Balanced.eq_or_exchange (h : Balanced m (n + w)) (h' : Balanced m (n + w'))
    (hw : w ≤ m) (hw' : w' ≤ m) : w = w' ∨ w = 0 ∧ w' = m ∨ w = m ∧ w' = 0 := by
  have hmod : w ≡ w' [MOD m] := by
    apply Nat.ModEq.add_left_cancel' n
    exact ((Nat.modEq_zero_iff_dvd).2 h.2).trans ((Nat.modEq_zero_iff_dvd).2 h'.2).symm
  rcases Nat.le_total w w' with hle | hle
  · have hdvd : m ∣ w' - w := (Nat.modEq_iff_dvd' hle).1 hmod
    rcases Nat.eq_zero_or_pos (w' - w) with hzero | hpos
    · omega
    · have := Nat.le_of_dvd hpos hdvd
      omega
  · have hdvd : m ∣ w - w' := (Nat.modEq_iff_dvd' hle).1 hmod.symm
    rcases Nat.eq_zero_or_pos (w - w') with hzero | hpos
    · omega
    · have := Nat.le_of_dvd hpos hdvd
      omega

/-- **Uniqueness.**  The complement is what balances the sum already, except that of the two
representations of zero it is `0`, unless nothing but zeros are summed. -/
theorem Balanced.complement_eq (h : Balanced m (n + w)) (hm : 0 < m) (hw : w ≤ m) :
    m - residue m n = if w = m ∧ n ≠ 0 then 0 else w := by
  have hle := residue_le (n := n) hm
  have hzero := residue_eq_zero_iff (m := m) (n := n)
  have hcomplement := balanced_add_complement (n := n) hm
  split_ifs with hcase
  · have hpos : residue m n ≠ 0 := fun hr => hcase.2 (hzero.1 hr)
    rcases hcomplement.eq_or_exchange h (Nat.sub_le _ _) hw with heq | ⟨heq, -⟩ | ⟨heq, -⟩
    · omega
    · exact heq
    · omega
  · rcases hcomplement.eq_or_exchange h (Nat.sub_le _ _) hw with heq | ⟨heq, heq'⟩ | ⟨heq, heq'⟩
    · exact heq
    · have hn : n = 0 := by
        by_contra hn
        exact hcase ⟨heq', hn⟩
      rw [hn, residue_zero] at heq
      omega
    · have hn : n = 0 := hzero.1 (by omega)
      exact absurd (by rw [hn, heq']) h.1

end Netstack
