/-
# The grammar of chunk sizes

A chunk-size line gives its size as one run of hexadecimal digits, with blanks around it
and an extension behind it (`IsChunkSize`).  `parse_chunk_size` skips blanks wherever they
stand, also between the digits: it reads whatever is left of the line without its blanks
(`scanSize_eq_some`), and is right about exactly the lines that have no blank between
two digits (`parseChunkSize_grammar_iff`).
-/

import Netstack.Library.Padding
import Netstack.Http.Chunked

namespace Netstack

/-- A space or a tab. -/
def IsBlank (c : UInt8) : Prop := c = 32 ∨ c = 9

instance (c : UInt8) : Decidable (IsBlank c) := inferInstanceAs (Decidable (_ ∨ _))

/-- A hexadecimal digit. -/
def IsHexDigit (c : UInt8) : Prop := hexValue c ≠ none

instance (c : UInt8) : Decidable (IsHexDigit c) := inferInstanceAs (Decidable (_ ≠ _))

/-- The part of a line before its extension. -/
def sizePart (line : List UInt8) : List UInt8 := line.takeWhile (· ≠ 59)

/-- The line is a chunk-size line, and its size is `n`. -/
def IsChunkSize (line : List UInt8) (n : ℕ) : Prop :=
  ∃ before digits after, sizePart line = before ++ digits ++ after ∧
    (∀ c ∈ before, IsBlank c) ∧ (∀ c ∈ after, IsBlank c) ∧ digits ≠ [] ∧
    (∀ c ∈ digits, IsHexDigit c) ∧ n = hexNumber 0 digits ∧ n ≤ sizeMax

/-! ### What is accepted -/

/-- The characters that `parse_chunk_size` takes for digits. -/
def sizeDigits (line : List UInt8) : List UInt8 :=
  (sizePart line).filter fun c => ¬IsBlank c

@[simp] theorem sizeDigits_semicolon (line : List UInt8) : sizeDigits (59 :: line) = [] := rfl

/-- A blank is not among the digits that the source accumulates, wherever it stands. -/
theorem sizeDigits_blank {c : UInt8} (h : IsBlank c) (line : List UInt8) :
    sizeDigits (c :: line) = sizeDigits line := by
  have hc : c ≠ 59 := by
    rcases h with rfl | rfl <;> decide
  simp [sizeDigits, sizePart, hc, h]

theorem sizeDigits_digit {c : UInt8} (hc : c ≠ 59) (h : ¬IsBlank c) (line : List UInt8) :
    sizeDigits (c :: line) = c :: sizeDigits line := by
  simp [sizeDigits, sizePart, hc, h]

/-- A digit in front is accumulated first. -/
theorem hexNumber_cons {c : UInt8} {digit : ℕ} (h : hexValue c = some digit) (value : ℕ)
    (digits : List UInt8) :
    hexNumber value (c :: digits) = hexNumber (value * 16 + digit) digits := by
  rw [hexNumber, List.foldl_cons, h]
  rfl

/-- Where the line ends, the value is what has been accumulated, if there was a digit at all; the
induction over the line begins here. -/
theorem sizeEnd_iff {value n : ℕ} {sawDigit : Bool} (hvalue : value ≤ sizeMax) :
    (if sawDigit then some value else none) = some n ↔
      (∀ c ∈ ([] : List UInt8), IsHexDigit c) ∧ (sawDigit = true ∨ ([] : List UInt8) ≠ []) ∧
        n = hexNumber value [] ∧ n ≤ sizeMax := by
  cases sawDigit with
  | false => simp
  | true =>
      simp only [if_true, Option.some.injEq, List.not_mem_nil, false_imp_iff, implies_true,
        true_or, true_and, hexNumber, List.foldl_nil]
      constructor
      · rintro rfl
        exact ⟨rfl, hvalue⟩
      · rintro ⟨rfl, -⟩
        rfl

/-- **The accumulator.**  What is read is the number of the digits, when they are digits and the
number fits. -/
theorem scanSize_eq_some_iff {line : List UInt8} {value n : ℕ} {sawDigit : Bool}
    (hvalue : value ≤ sizeMax) : scanSize line value sawDigit = some n ↔
      (∀ c ∈ sizeDigits line, IsHexDigit c) ∧ (sawDigit = true ∨ sizeDigits line ≠ []) ∧
        n = hexNumber value (sizeDigits line) ∧ n ≤ sizeMax := by
  induction line generalizing value sawDigit with
  | nil => exact sizeEnd_iff hvalue
  | cons c line ih =>
      rw [scanSize]
      by_cases hext : c = 59
      · rw [if_pos hext, hext, sizeDigits_semicolon]
        exact sizeEnd_iff hvalue
      by_cases hblank : c = 32 ∨ c = 9
      · rw [if_neg hext, if_pos hblank, sizeDigits_blank hblank]
        exact ih hvalue
      rw [if_neg hext, if_neg hblank, sizeDigits_digit hext hblank]
      cases hdigit : hexValue c with
      | none => simp [IsHexDigit, hdigit]
      | some digit =>
          have hguard := @size_guard value digit (hexValue_lt hdigit)
          have hle := le_hexNumber (value * 16 + digit) (sizeDigits line)
          have hc : IsHexDigit c := by simp [IsHexDigit, hdigit]
          dsimp only
          rw [hexNumber_cons hdigit, List.forall_mem_cons, and_iff_right hc]
          by_cases hlarge : value > (sizeMax - digit) / 16
          · rw [if_pos hlarge]
            have hover := hguard.1 hlarge
            refine iff_of_false (by simp) ?_
            rintro ⟨-, -, rfl, hfits⟩
            omega
          · have hfits := Nat.le_of_not_lt (mt hguard.2 hlarge)
            rw [if_neg hlarge, ih hfits]
            simp

/-- The line has a size when its blanks are left out, and it is `n`. -/
def IsJoinedSize (line : List UInt8) (n : ℕ) : Prop :=
  (∀ c ∈ sizeDigits line, IsHexDigit c) ∧ sizeDigits line ≠ [] ∧
    n = hexNumber 0 (sizeDigits line) ∧ n ≤ sizeMax

theorem IsJoinedSize.unique {line : List UInt8} {m n : ℕ} (hm : IsJoinedSize line m)
    (hn : IsJoinedSize line n) : m = n := hm.2.2.1.trans hn.2.2.1.symm

/-- **`parse_chunk_size` leaves the blanks out**, wherever they stand. -/
theorem scanSize_eq_some {line : List UInt8} {n : ℕ} :
    scanSize line 0 false = some n ↔ IsJoinedSize line n := by
  rw [scanSize_eq_some_iff (Nat.zero_le _)]
  simp [IsJoinedSize]

/-! ### What the grammar accepts -/

theorem IsHexDigit.not_isBlank {c : UInt8} (h : IsHexDigit c) : ¬IsBlank c := by
  rintro (rfl | rfl) <;> exact h rfl

/-- A chunk-size line has all of its digits together. -/
theorem isChunkSize_iff {line : List UInt8} {n : ℕ} :
    IsChunkSize line n ↔ ¬IsSplit IsBlank (sizePart line) ∧ IsJoinedSize line n := by
  rw [not_isSplit_iff]
  constructor
  · rintro ⟨before, digits, after, hpart, hbefore, hafter, hdigits, hhex, hn, hfits⟩
    have hpadded : IsPadded IsBlank (sizePart line) digits :=
      ⟨before, after, hpart, hbefore, hafter, fun c hc => (hhex c hc).not_isBlank⟩
    have heq : sizeDigits line = digits := hpadded.filter_eq
    exact ⟨⟨digits, hpadded⟩, heq ▸ hhex, heq ▸ hdigits, heq ▸ hn, hfits⟩
  · rintro ⟨⟨digits, hpadded⟩, hhex, hdigits, hn, hfits⟩
    have heq : sizeDigits line = digits := hpadded.filter_eq
    obtain ⟨before, after, hpart, hbefore, hafter, -⟩ := hpadded
    rw [heq] at hhex hdigits hn
    exact ⟨before, digits, after, hpart, hbefore, hafter, hdigits, hhex, hn, hfits⟩

/-- The line has blanks between digits, and would have a size without them. -/
def HasSplitSize (line : List UInt8) : Prop :=
  IsSplit IsBlank (sizePart line) ∧ ∃ n, IsJoinedSize line n

/-- What `parse_chunk_size` makes of a line, wherever the line stands. -/
theorem parseChunkSize_line (before line after : List UInt8) :
    (parseChunkSize (before ++ line ++ after) before.length line.length).run =
      .ok (scanSize line 0 false) := by
  have hdrop : (before ++ line ++ after).drop before.length = line ++ after := by
    rw [List.append_assoc, List.drop_left]
  rw [parseChunkSize_eq hdrop]
  cases line with
  | nil => rfl
  | cons c line => rw [if_neg (List.cons_ne_nil c line)]

/-- **`parse_chunk_size` decides the grammar** on the lines that have no blanks between their
digits, and on no others. -/
theorem parseChunkSize_grammar_iff (before line after : List UInt8) :
    (∃ result, (parseChunkSize (before ++ line ++ after) before.length line.length).run =
        .ok result ∧ ∀ n, result = some n ↔ IsChunkSize line n) ↔
      ¬HasSplitSize line := by
  rw [parseChunkSize_line]
  constructor
  · rintro ⟨result, hresult, hgrammar⟩ ⟨hsplit, n, hn⟩
    obtain rfl := Except.ok.inj hresult
    have hsize := (hgrammar n).1 (scanSize_eq_some.2 hn)
    exact (isChunkSize_iff.1 hsize).1 hsplit
  · intro hnot
    refine ⟨_, rfl, fun n => ?_⟩
    rw [scanSize_eq_some, isChunkSize_iff]
    constructor
    · exact fun hn => ⟨fun hsplit => hnot ⟨hsplit, n, hn⟩, hn⟩
    · exact And.right

/-- The line `1 0`. -/
def splitSizeLine : List UInt8 := [49, 32, 48]

/-- It is no chunk-size line, and is read as sixteen. -/
theorem splitSizeLine_accepted :
    (parseChunkSize splitSizeLine 0 splitSizeLine.length).run = .ok (some 16) ∧
      ∀ n, ¬IsChunkSize splitSizeLine n := by
  refine ⟨by decide +kernel, fun n h => (isChunkSize_iff.1 h).1 ?_⟩
  exact ⟨[], 49, [32], 48, [], rfl, by decide, by decide, by decide,
    List.forall_mem_singleton.2 (by decide)⟩

end Netstack
