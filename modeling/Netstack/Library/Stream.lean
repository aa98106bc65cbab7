/-
# Streams that arrive in pieces

A stream is a list.  A piece of it comes with the offset at which it belongs, and
`Slice` says that it is what the stream holds there.  A receiver that has the first
bytes of the stream extends them by the part of a piece that is new, and
`Slice.append_prefix` is the one fact it rests on: the result is a longer beginning
of the stream, up to the end of the piece.

What a receiver can hand on in order is the longest beginning of the stream all of
whose positions have arrived.  `coveredPrefixes` is the set of the lengths it has to
choose from, and `isGreatest_coveredPrefixes` the local criterion for the greatest:
everything before it has arrived, and the position at it has not.
-/

import Mathlib.Data.List.Infix
import Mathlib.Order.Bounds.Basic
import Mathlib.Tactic.Common

namespace Stream

variable {α : Type*}

/-- The stream holds `piece` at `offset`. -/
def Slice (stream : List α) (offset : ℕ) (piece : List α) : Prop := piece <+: stream.drop offset

instance [DecidableEq α] (stream : List α) (offset : ℕ) (piece : List α) :
    Decidable (Slice stream offset piece) := inferInstanceAs (Decidable (_ <+: _))

/-- A piece that is not empty ends inside the stream. -/
theorem Slice.end_le {stream piece : List α} {offset : ℕ} (h : Slice stream offset piece)
    (hne : piece ≠ []) : offset + piece.length ≤ stream.length := by
  have hlen : piece.length ≤ (stream.drop offset).length := List.IsPrefix.length_le h
  have hpos := List.length_pos_iff.2 hne
  rw [List.length_drop] at hlen
  omega

/-- **Extending a beginning of the stream.**  Behind what has arrived in order, the new
part of a piece that reaches it continues the stream. -/
theorem Slice.append_prefix {stream piece front : List α} {offset : ℕ}
    (h : Slice stream offset piece) (hfront : front <+: stream) (hle : offset ≤ front.length) :
    front ++ piece.drop (front.length - offset) <+: stream := by
  obtain ⟨rest, rfl⟩ := hfront
  have hnew := List.IsPrefix.drop h (front.length - offset)
  rw [List.drop_drop, Nat.add_sub_cancel' hle, List.drop_left] at hnew
  exact (List.prefix_append_right_inj front).2 hnew

/-- The lengths `k` up to `n` such that every position before `k` has arrived. -/
def coveredPrefixes (n : ℕ) (arrived : ℕ → Prop) : Set ℕ := {k | k ≤ n ∧ ∀ i < k, arrived i}

/-- **The longest covered beginning** ends at the first position that is missing. -/
theorem isGreatest_coveredPrefixes {n k : ℕ} {arrived : ℕ → Prop} (hle : k ≤ n)
    (hbefore : ∀ i < k, arrived i) (hat : k < n → ¬arrived k) :
    IsGreatest (coveredPrefixes n arrived) k := by
  refine ⟨⟨hle, hbefore⟩, fun m hm => ?_⟩
  obtain ⟨hmn, hall⟩ := hm
  by_contra hlt
  rw [Nat.not_le] at hlt
  exact hat (lt_of_lt_of_le hlt hmn) (hall k hlt)

/-- What has arrived decides how much of it is in order. -/
theorem coveredPrefixes_congr {n : ℕ} {P Q : ℕ → Prop} (h : ∀ i, P i ↔ Q i) :
    coveredPrefixes n P = coveredPrefixes n Q := by
  have : P = Q := funext fun i => propext (h i)
  rw [this]

end Stream
