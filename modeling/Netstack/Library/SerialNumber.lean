/-
# Serial numbers: comparison by signed distance

A counter that wraps at `2 ^ w` is compared by the signed distance of two of its
values: `dist a b` is `a - b` read in two's complement.  The comparison is a
linear order only inside a window of less than half the circle, so the lemmas
come in two kinds.  `dist_add_left`, `dist_add_right` move one side by a number
of steps and say when the distance moves with it; `dist_offset` and its
neighbours are the case of two values counted from a common base, where the
distance is the difference of the two counts.

`InRange start n x` is the wrap-free form of "`x` lies in the `n` values from
`start` on".  `inRange_iff_dist` says that the pair of signed comparisons
programs write for it means the same while the range is short.
-/

import Mathlib.Data.BitVec
import Mathlib.Tactic.Abel

namespace SerialNumber

variable {w : ℕ}

/-- The signed distance from `b` to `a` on the circle of `2 ^ w` values. -/
def dist (a b : BitVec w) : ℤ := (a - b).toInt

theorem dist_lt (a b : BitVec w) : 2 * dist a b < 2 ^ w := BitVec.two_mul_toInt_lt

theorem le_dist (a b : BitVec w) : -2 ^ w ≤ 2 * dist a b := BitVec.le_two_mul_toInt

@[simp] theorem dist_self (a : BitVec w) : dist a a = 0 := by
  rw [dist, BitVec.sub_self, BitVec.toInt_zero]

/-- Only a number itself is at distance zero. -/
theorem dist_eq_zero {a b : BitVec w} : dist a b = 0 ↔ a = b := by
  constructor
  · intro h
    have : a - b = 0#w := BitVec.eq_of_toInt_eq (by rw [BitVec.toInt_zero]; exact h)
    rw [← BitVec.sub_add_cancel a b, this, BitVec.zero_add]
  · rintro rfl
    exact dist_self a

/-- The unsigned and the signed difference agree where the latter is not negative. -/
theorem toNat_sub_eq {a b : BitVec w} (h : 0 ≤ dist a b) : ((a - b).toNat : ℤ) = dist a b := by
  have := (a - b).isLt
  rw [dist, BitVec.toInt_eq_toNat_cond] at h ⊢
  split_ifs at h ⊢ <;> omega

theorem dist_eq_toNat {a b : BitVec w} (h : 2 * (a - b).toNat < 2 ^ w) :
    dist a b = (a - b).toNat := by
  rw [dist, BitVec.toInt_eq_toNat_cond, if_pos h]

/-- A signed integer within half the circle is the signed value of its residue. -/
theorem bmod_two_pow {z : ℤ} (h₁ : -2 ^ w ≤ 2 * z) (h₂ : 2 * z < 2 ^ w) :
    z.bmod (2 ^ w) = z :=
  Int.bmod_eq_of_le_mul_two (by push_cast; omega) (by push_cast; omega)

/-- Moving the left value `n` steps on moves the distance by `n`, unless it
leaves the half circle. -/
theorem dist_add_left {a b : BitVec w} {n : ℕ} (h : 2 * (dist a b + n) < 2 ^ w) :
    dist (a + BitVec.ofNat w n) b = dist a b + n := by
  have hlow := le_dist a b
  have heq : a + BitVec.ofNat w n - b = (a - b) + BitVec.ofNat w n := by abel
  have hnat : (BitVec.ofNat w n).toInt = (n : ℤ).bmod (2 ^ w) := BitVec.toInt_ofNat' n
  rw [dist, heq, BitVec.toInt_add, hnat, Int.add_bmod_bmod]
  exact bmod_two_pow (by have := hlow; unfold dist at this; omega) h

/-- Moving the right value `n` steps on moves the distance back by `n`, unless it
leaves the half circle. -/
theorem dist_add_right {a b : BitVec w} {n : ℕ} (h : -2 ^ w ≤ 2 * (dist a b - n)) :
    dist a (b + BitVec.ofNat w n) = dist a b - n := by
  have hhigh := dist_lt a b
  have heq : a - (b + BitVec.ofNat w n) = (a - b) - BitVec.ofNat w n := by abel
  have hnat : (BitVec.ofNat w n).toInt = (n : ℤ).bmod (2 ^ w) := BitVec.toInt_ofNat' n
  rw [dist, heq, BitVec.toInt_sub, hnat, Int.sub_bmod_bmod]
  exact bmod_two_pow h (by have := hhigh; unfold dist at this; omega)

/-- The distance back is the negated distance, except for the antipode. -/
theorem dist_comm {a b : BitVec w} (h : -2 ^ w < 2 * dist b a) : dist a b = -dist b a := by
  have heq : a - b = -(b - a) := by abel
  rw [dist, heq, BitVec.toInt_neg]
  exact bmod_two_pow (by have := dist_lt b a; unfold dist at this; omega)
    (by unfold dist at h; omega)

/-! ### Values counted from a common base -/

/-- Every value is counted from every base. -/
theorem eq_add_toNat_sub (base x : BitVec w) : x = base + BitVec.ofNat w (x - base).toNat := by
  rw [BitVec.ofNat_toNat, BitVec.setWidth_eq, BitVec.add_comm, BitVec.sub_add_cancel]

theorem add_ofNat_add (base : BitVec w) (i j : ℕ) :
    base + BitVec.ofNat w i + BitVec.ofNat w j = base + BitVec.ofNat w (i + j) := by
  rw [BitVec.add_assoc, BitVec.ofNat_add]

/-- Within half of the space, distances are those of the offsets: this is what comparisons of
sequence numbers rely on. -/
theorem dist_offset {base : BitVec w} {i j : ℕ} (hi : 2 * i < 2 ^ w) (hj : 2 * j < 2 ^ w) :
    dist (base + BitVec.ofNat w i) (base + BitVec.ofNat w j) = (i : ℤ) - j := by
  have hij : (2 : ℤ) * i < 2 ^ w := by exact_mod_cast hi
  have hjj : (2 : ℤ) * j < 2 ^ w := by exact_mod_cast hj
  have h : dist (base + BitVec.ofNat w i) base = i := by
    rw [dist_add_left (by rw [dist_self]; omega), dist_self, zero_add]
  rw [dist_add_right (by rw [h]; omega), h]

/-- The difference of two numbers counts how far the one is ahead. -/
theorem toNat_sub_offset {base : BitVec w} {i j : ℕ} (hji : j ≤ i) (hi : i < 2 ^ w) :
    (base + BitVec.ofNat w i - (base + BitVec.ofNat w j)).toNat = i - j := by
  have h : base + BitVec.ofNat w i - (base + BitVec.ofNat w j) = BitVec.ofNat w (i - j) := by
    rw [show base + BitVec.ofNat w i
        = base + BitVec.ofNat w j + BitVec.ofNat w (i - j) by
      rw [add_ofNat_add, Nat.add_sub_cancel' hji],
      BitVec.add_comm (base + BitVec.ofNat w j), BitVec.add_sub_cancel]
  rw [h, BitVec.toNat_ofNat, Nat.mod_eq_of_lt (by omega)]

/-- Offsets smaller than the space are told apart. -/
theorem offset_inj {base : BitVec w} {i j : ℕ} (hi : i < 2 ^ w) (hj : j < 2 ^ w) :
    base + BitVec.ofNat w i = base + BitVec.ofNat w j ↔ i = j := by
  constructor
  · intro h
    have h' := congrArg BitVec.toNat (add_left_cancel h)
    rwa [BitVec.toNat_ofNat, BitVec.toNat_ofNat, Nat.mod_eq_of_lt hi, Nat.mod_eq_of_lt hj] at h'
  · rintro rfl
    rfl

/-! ### Differences that do not wrap -/

/-- The way from `a` to `b` through `x`, when `x` lies on it. -/
theorem toNat_sub_sub {a b x : BitVec w} (h : (x - a).toNat ≤ (b - a).toNat) :
    (b - x).toNat = (b - a).toNat - (x - a).toNat := by
  have heq : b - x = (b - a) - (x - a) := by abel
  rw [heq, BitVec.toNat_sub_of_le (BitVec.le_def.2 h)]

/-- Two ways in a row, when together they do not go round the circle. -/
theorem toNat_sub_add {a b x : BitVec w} (h : (x - a).toNat + (a - b).toNat < 2 ^ w) :
    (x - b).toNat = (x - a).toNat + (a - b).toNat := by
  have heq : x - b = (x - a) + (a - b) := by abel
  rw [heq, BitVec.toNat_add_of_lt h]

/-- Numbers are equal where their difference is zero. -/
theorem toNat_sub_eq_zero {a b : BitVec w} : (a - b).toNat = 0 ↔ a = b := by
  constructor
  · intro h
    rw [eq_add_toNat_sub b a, h, BitVec.add_zero]
  · rintro rfl
    rw [BitVec.sub_self, BitVec.toNat_zero]

/-! ### Ranges -/

/-- `x` is one of the `n` values from `start` on. -/
def InRange (start : BitVec w) (n : ℕ) (x : BitVec w) : Prop := (x - start).toNat < n

instance (start : BitVec w) (n : ℕ) (x : BitVec w) : Decidable (InRange start n x) :=
  inferInstanceAs (Decidable (_ < _))

theorem inRange_offset {base : BitVec w} {o n i : ℕ} (hoi : o ≤ i) (hi : i < 2 ^ w) :
    InRange (base + BitVec.ofNat w o) n (base + BitVec.ofNat w i) ↔ i < o + n := by
  rw [InRange, toNat_sub_offset hoi hi]
  omega

/-- Positions counted from a common base lie in a range that does not go round the
circle as their counts do. -/
theorem inRange_offset_iff {base : BitVec w} {o n i : ℕ} (hn : o + n ≤ 2 ^ w) (hi : i < 2 ^ w) :
    InRange (base + BitVec.ofNat w o) n (base + BitVec.ofNat w i) ↔ o ≤ i ∧ i < o + n := by
  by_cases hoi : o ≤ i
  · rw [inRange_offset hoi hi, and_iff_right hoi]
  refine iff_of_false (fun hin => ?_) (fun h => hoi h.1)
  have hback : (base + BitVec.ofNat w i - (base + BitVec.ofNat w o)) = -BitVec.ofNat w (o - i) := by
    rw [show base + BitVec.ofNat w o = base + BitVec.ofNat w i + BitVec.ofNat w (o - i) by
      rw [add_ofNat_add, Nat.add_sub_cancel' (by omega)]]
    abel
  have hpos : 0 < n := lt_of_le_of_lt (Nat.zero_le _) hin
  rw [InRange, hback, BitVec.toNat_neg, BitVec.toNat_ofNat, Nat.mod_eq_of_lt (a := o - i) (by omega),
    Nat.mod_eq_of_lt (by omega)] at hin
  omega

/-- An advance that does not reach the end of a range stays inside. -/
theorem InRange.advance {start x y : BitVec w} {n : ℕ} (h : InRange start n x) (hn : n < 2 ^ w)
    (hle : (y - x).toNat ≤ (start + BitVec.ofNat w n - x).toNat)
    (hne : y ≠ start + BitVec.ofNat w n) : InRange start n y := by
  have hi : (x - start).toNat < n := h
  have hx := eq_add_toNat_sub start x
  have hy := eq_add_toNat_sub x y
  generalize (x - start).toNat = i at hi hx
  generalize (y - x).toNat = k at hle hy
  rw [hx, toNat_sub_offset hi.le hn] at hle
  rw [hx, add_ofNat_add] at hy
  have hki : i + k ≠ n := fun heq => hne (by rw [hy, heq])
  have hrange := @inRange_offset w start 0 n (i + k) (Nat.zero_le _) (by omega)
  rw [BitVec.add_zero] at hrange
  rw [hy, hrange]
  omega

/-- The two signed comparisons that programs write for "not before `start` and
before the end" decide membership in a range shorter than half the circle. -/
theorem inRange_iff_dist {start x : BitVec w} {n : ℕ} (h₀ : 0 < n) (hn : 2 * n < 2 ^ w) :
    InRange start n x ↔ dist start x ≤ 0 ∧ 0 < dist (start + BitVec.ofNat w n) x := by
  have hn' : (2 : ℤ) * n < 2 ^ w := by exact_mod_cast hn
  have hback := le_dist x start
  constructor
  · intro h
    have hd : dist x start = (x - start).toNat := dist_eq_toNat (by unfold InRange at h; omega)
    unfold InRange at h
    have hs : dist start x = -dist x start := dist_comm (by omega)
    refine ⟨by omega, ?_⟩
    rw [dist_add_left (by omega)]
    omega
  · rintro ⟨h₁, h₂⟩
    have hlow := le_dist start x
    rw [dist_add_left (by omega)] at h₂
    have hd : dist x start = -dist start x := dist_comm (by omega)
    have := toNat_sub_eq (a := x) (b := start) (by omega)
    unfold InRange
    omega

theorem not_inRange_zero (start x : BitVec w) : ¬InRange start 0 x := Nat.not_lt_zero _

/-- A range shorter than half the circle loses its values before `x` when its start
moves to `x`. -/
theorem inRange_advance {a b x y : BitVec w} (hx : (x - a).toNat ≤ (b - a).toNat)
    (h : 2 * (b - a).toNat < 2 ^ w) :
    InRange x (b - x).toNat y ↔ InRange a (b - a).toNat y ∧ 0 ≤ dist y x := by
  have hrest := toNat_sub_sub hx
  constructor
  · intro hy
    unfold InRange at hy ⊢
    have hadd := toNat_sub_add (a := x) (b := a) (x := y) (by omega)
    rw [dist_eq_toNat (a := y) (b := x) (by omega)]
    omega
  · rintro ⟨hy, hdist⟩
    unfold InRange at hy ⊢
    have hd : dist y x = ((y - a).toNat : ℤ) - (x - a).toNat := by
      conv_lhs => rw [eq_add_toNat_sub a y, eq_add_toNat_sub a x]
      exact dist_offset (by omega) (by omega)
    have hnat := toNat_sub_eq hdist
    omega

/-- The values of a range, one by one. -/
theorem mem_range_iff {start x : BitVec w} {n : ℕ} (hn : n < 2 ^ w) :
    x ∈ (List.range n).map (fun i => start + BitVec.ofNat w i) ↔ InRange start n x := by
  rw [List.mem_map]
  constructor
  · rintro ⟨i, hi, rfl⟩
    rw [List.mem_range] at hi
    have hin : InRange (start + BitVec.ofNat w 0) n (start + BitVec.ofNat w i) :=
      (inRange_offset (Nat.zero_le i) (by omega)).2 (by omega)
    rwa [BitVec.add_zero] at hin
  · intro h
    exact ⟨(x - start).toNat, List.mem_range.2 h, (eq_add_toNat_sub start x).symm⟩

/-- The two signed comparisons that programs write for "after `a` and not after
`b`" decide membership in the half-open window behind `a` while `b` is less than
half the circle ahead. -/
theorem inWindow_iff_dist {a b x : BitVec w} (h : 2 * (b - a).toNat < 2 ^ w) :
    0 < dist x a ∧ dist x b ≤ 0 ↔ 0 < (x - a).toNat ∧ (x - a).toNat ≤ (b - a).toNat := by
  have hlt := (x - a).isLt
  by_cases hx : 2 * (x - a).toNat < 2 ^ w
  · have hxa := dist_eq_toNat hx
    have hxb : dist x b = ((x - a).toNat : ℤ) - (b - a).toNat := by
      rw [eq_add_toNat_sub a x, eq_add_toNat_sub a b, dist_offset hx h,
        ← eq_add_toNat_sub, ← eq_add_toNat_sub]
    omega
  · have hneg : dist x a < 0 := by
      rw [dist, BitVec.toInt_eq_toNat_cond, if_neg hx]
      have : ((x - a).toNat : ℤ) < 2 ^ w := by exact_mod_cast hlt
      push_cast
      omega
    omega

end SerialNumber
