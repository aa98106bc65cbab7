/-
# Encoded host names

`dns_skip_name` of `src/dns.c`, and the names it skips: at most 127 labels of 1 to 63
bytes, each behind its length, and then a zero byte or a compression pointer, which is
not followed.

A function that returns `0` and moves `*offset`, or `-1`, is a computation in
`OptionT Checked` that returns the new offset or fails.
-/

import Netstack.Bytes
import Netstack.Library.Format

namespace Netstack

/-! ### The source -/

/-- The `while (pos < data_len)` loop of `dns_skip_name`.  Every turn that does not return
counts a label, and the 128th label ends the loop, so that 128 turns are enough. -/
def dnsSkipLabels (data : List UInt8) : ℕ → ℕ → ℕ → OptionT Checked ℕ
  | 0, _, _ => OptionT.lift (.error .diverge)
  | fuel + 1, pos, labelsSeen =>
    if pos < data.length then do
      let length ← OptionT.lift (readAt data pos)
      -- compression pointer
      if length &&& 0xC0 = 0xC0 then
        if sizeAdd pos 1 ≥ data.length then failure
        else return sizeAdd pos 2
      -- reserved DNS label forms
      else if length &&& 0xC0 ≠ 0 then failure
      else
        let pos := sizeAdd pos 1
        if length = 0 then return pos
        else if length > 63 then failure
        else if sizeAdd pos length.toNat > data.length then failure
        else
          let pos := sizeAdd pos length.toNat
          let labelsSeen := sizeAdd labelsSeen 1
          if labelsSeen > 127 then failure
          else dnsSkipLabels data fuel pos labelsSeen
    else failure

/-- `dns_skip_name` -/
def dnsSkipName (data : List UInt8) (offset : ℕ) : OptionT Checked ℕ :=
  if offset ≥ data.length then failure
  else dnsSkipLabels data 128 offset 0

/-! ### The names -/

/-- How an encoded name ends. -/
inductive DnsNameEnd where
  /-- a zero byte -/
  | root
  /-- a compression pointer, two bytes with the top bits 11 -/
  | pointer (high low : UInt8) (top : high &&& 0xC0 = 0xC0)

/-- The bytes of the end of a name. -/
def DnsNameEnd.encode : DnsNameEnd → List UInt8
  | .root => [0]
  | .pointer high low _ => [high, low]

/-- A label behind its length. -/
def encodeLabel (label : List UInt8) : List UInt8 := UInt8.ofNat label.length :: label

/-- The length of a label is 1 to 63 bytes. -/
def IsLabel (label : List UInt8) : Prop := 1 ≤ label.length ∧ label.length ≤ 63

/-- An encoded name. -/
structure DnsName where
  labels : List (List UInt8)
  ending : DnsNameEnd
  labels_le : labels.length ≤ 127
  isLabel : ∀ label ∈ labels, IsLabel label

/-- The bytes of a name. -/
def DnsName.encode (name : DnsName) : List UInt8 :=
  name.labels.flatMap encodeLabel ++ name.ending.encode

/-! ### What is skipped -/

/-- The bytes of at most `n` labels and the end of the name. -/
def IsNameTail (n : ℕ) (w : List UInt8) : Prop :=
  ∃ (labels : List (List UInt8)) (ending : DnsNameEnd), labels.length ≤ n ∧
    (∀ label ∈ labels, IsLabel label) ∧ w = labels.flatMap encodeLabel ++ ending.encode

/-- The lengths of labels are the bytes from 1 to 63 with the top bits 00. -/
theorem top_bits (b : UInt8) : b &&& 0xC0 = 0 ↔ b.toNat ≤ 63 := by
  have hall : ∀ n < 256, UInt8.ofNat n &&& 0xC0 = 0 ↔ n ≤ 63 := by decide +kernel
  simpa using hall b.toNat b.toNat_lt

/-- The length of a label fits into its byte. -/
theorem IsLabel.toNat {label : List UInt8} (h : IsLabel label) :
    (UInt8.ofNat label.length).toNat = label.length := by
  have := h.2
  rw [UInt8.toNat_ofNat']
  omega

/-- The first byte decides what a name goes on with. -/
theorem isNameTail_cons {n : ℕ} {b : UInt8} {w : List UInt8} :
    IsNameTail n (b :: w) ↔
      (b &&& 0xC0 = 0xC0 ∧ w.length = 1) ∨ (b = 0 ∧ w = []) ∨
        (1 ≤ b.toNat ∧ b.toNat ≤ 63 ∧ 0 < n ∧
          ∃ w₁ w₂, w = w₁ ++ w₂ ∧ w₁.length = b.toNat ∧ IsNameTail (n - 1) w₂) := by
  constructor
  · rintro ⟨labels, ending, hle, hlabels, heq⟩
    cases labels with
    | nil =>
        cases ending with
        | root =>
            obtain ⟨rfl, rfl⟩ : b = 0 ∧ w = [] := by simpa [DnsNameEnd.encode] using heq
            exact Or.inr (Or.inl ⟨rfl, rfl⟩)
        | pointer high low top =>
            obtain ⟨rfl, rfl⟩ : b = high ∧ w = [low] := by simpa [DnsNameEnd.encode] using heq
            exact Or.inl ⟨top, rfl⟩
    | cons label labels =>
        have hlabel := hlabels label (List.mem_cons_self ..)
        obtain ⟨rfl, rfl⟩ : b = UInt8.ofNat label.length ∧
            w = label ++ (labels.flatMap encodeLabel ++ ending.encode) := by
          simpa [encodeLabel] using heq
        rw [List.length_cons] at hle
        rw [hlabel.toNat]
        refine Or.inr (Or.inr ⟨hlabel.1, hlabel.2, by omega, label, _, rfl, rfl, labels, ending,
          by omega, fun l hl => hlabels l (List.mem_cons_of_mem _ hl), rfl⟩)
  · rintro (⟨htop, hlen⟩ | ⟨rfl, rfl⟩ | ⟨hpos, hle, hn, w₁, w₂, rfl, hlen, labels, ending, hcount,
      hlabels, rfl⟩)
    · obtain ⟨low, rfl⟩ := List.length_eq_one_iff.1 hlen
      exact ⟨[], .pointer b low htop, Nat.zero_le _, by simp, rfl⟩
    · exact ⟨[], .root, Nat.zero_le _, by simp, rfl⟩
    · refine ⟨w₁ :: labels, ending, ?_, ?_, ?_⟩
      · rw [List.length_cons]
        omega
      · intro label hmem
        rcases List.mem_cons.1 hmem with rfl | hmem
        · exact ⟨by omega, by omega⟩
        · exact hlabels label hmem
      · simp [encodeLabel, hlen]

/-- Behind the first byte of a pointer stands one more byte. -/
theorem isNameTail_pointer {n : ℕ} {b : UInt8} {w : List UInt8} (htop : b &&& 0xC0 = 0xC0) :
    IsNameTail n (b :: w) ↔ w.length = 1 := by
  have hlarge : ¬b.toNat ≤ 63 := fun h => by simp [(top_bits b).2 h] at htop
  have hzero : b ≠ 0 := by
    rintro rfl
    simp at hlarge
  rw [isNameTail_cons]
  simp [htop, hlarge, hzero]

/-- The other bytes with a top bit begin nothing. -/
theorem not_isNameTail_reserved {n : ℕ} {b : UInt8} {w : List UInt8} (htop : b &&& 0xC0 ≠ 0xC0)
    (hbits : b &&& 0xC0 ≠ 0) : ¬IsNameTail n (b :: w) := by
  have hlarge : ¬b.toNat ≤ 63 := fun h => hbits ((top_bits b).2 h)
  have hzero : b ≠ 0 := by
    rintro rfl
    simp at hlarge
  rw [isNameTail_cons]
  simp [htop, hlarge, hzero]

/-- Nothing stands behind the zero byte. -/
theorem isNameTail_root {n : ℕ} {w : List UInt8} : IsNameTail n (0 :: w) ↔ w = [] := by
  rw [isNameTail_cons]
  simp

/-- Behind the length of a label stand the label and the rest of the name. -/
theorem isNameTail_label {n : ℕ} {b : UInt8} {w : List UInt8} (htop : b &&& 0xC0 ≠ 0xC0)
    (hzero : b ≠ 0) (hle : b.toNat ≤ 63) :
    IsNameTail n (b :: w) ↔
      ∃ w₁ w₂, w = w₁ ++ w₂ ∧ w₁.length = b.toNat ∧ 0 < n ∧ IsNameTail (n - 1) w₂ := by
  have hpos : 1 ≤ b.toNat := by
    by_contra hnot
    exact hzero (UInt8.toNat_inj.1 (by simpa using hnot))
  rw [isNameTail_cons]
  simp only [htop, hzero, false_and, false_or, hpos, hle, true_and]
  constructor
  · rintro ⟨hn, w₁, w₂, heq, hlen, htail⟩
    exact ⟨w₁, w₂, heq, hlen, hn, htail⟩
  · rintro ⟨w₁, w₂, heq, hlen, hn, htail⟩
    exact ⟨hn, w₁, w₂, heq, hlen, htail⟩

/-- A name does not end without its zero byte or a pointer. -/
theorem isNameTail_ne_nil {n : ℕ} : ¬IsNameTail n [] := by
  rintro ⟨labels, ending, -, -, heq⟩
  cases labels with
  | nil => cases ending <;> simp [DnsNameEnd.encode] at heq
  | cons label labels => simp [encodeLabel] at heq

section Skip

variable {data : List UInt8} {pos : ℕ}

theorem exists_drop_eq_cons (h : pos < data.length) : ∃ b rest, data.drop pos = b :: rest :=
  ⟨data[pos], data.drop (pos + 1), List.drop_eq_getElem_cons h⟩

/-- The two bytes of a pointer, behind the first. -/
theorem pointer_parses (hdata : data.length ≤ maxObjectLen) (hpos : pos + 1 ≤ data.length) :
    Parses data (pos + 1)
      (if sizeAdd pos 1 ≥ data.length then failure
        else return sizeAdd pos 2 : OptionT Checked ℕ)
      fun w o => w.length = 1 ∧ o = pos + 1 + w.length := by
  have hone : sizeAdd pos 1 = pos + 1 := sizeAdd_of_object hdata (by omega) (by omega)
  have htwo : sizeAdd pos 2 = pos + 2 := sizeAdd_of_object hdata (by omega) (by omega)
  rw [hone, htwo]
  refine Parses.congr (Parses.skip (Q := fun _ w o => w = [] ∧ o = pos + 2) (n := 1) hpos ?_ ?_) ?_
  · intro hshort
    rw [if_pos (by omega)]
    rfl
  · intro henough
    rw [if_neg (by omega)]
    exact Parses.pure _
  · intro w o _
    constructor
    · rintro ⟨w₁, w₂, rfl, hlen, rfl, rfl⟩
      rw [List.append_nil]
      exact ⟨hlen, by omega⟩
    · rintro ⟨hlen, rfl⟩
      exact ⟨w, [], (List.append_nil w).symm, hlen, rfl, by omega⟩

/-- The bytes of a label, and what stands behind them. -/
theorem label_parses (hdata : data.length ≤ maxObjectLen) {len : ℕ} (hlen : len ≤ 255)
    {next : ℕ → OptionT Checked ℕ} {F : List UInt8 → Prop}
    (hnext : ∀ p ≤ data.length, Parses data p (next p) fun w o => F w ∧ o = p + w.length)
    (hpos : pos ≤ data.length) :
    Parses data pos
      (if sizeAdd pos len > data.length then failure else next (sizeAdd pos len))
      fun w o => (∃ w₁ w₂, w = w₁ ++ w₂ ∧ w₁.length = len ∧ F w₂) ∧ o = pos + w.length := by
  rw [sizeAdd_of_object hdata hpos (by omega)]
  refine Parses.congr (Parses.skip (n := len) hpos
    (Q := fun _ w₂ o => F w₂ ∧ o = pos + len + w₂.length) ?_ ?_) ?_
  · intro hshort
    rw [if_pos (by omega)]
    rfl
  · intro hroom
    rw [if_neg (by omega)]
    exact hnext _ hroom
  · intro w o _
    constructor
    · rintro ⟨w₁, w₂, rfl, hw₁, htail, rfl⟩
      refine ⟨⟨w₁, w₂, rfl, hw₁, htail⟩, ?_⟩
      rw [List.length_append]
      omega
    · rintro ⟨⟨w₁, w₂, rfl, hw₁, htail⟩, rfl⟩
      refine ⟨w₁, w₂, rfl, hw₁, htail, ?_⟩
      rw [List.length_append]
      omega

/-- **One turn of the loop of `dns_skip_name`**, when the next one takes what is left of a name. -/
theorem dnsSkipLabels_turn (hdata : data.length ≤ maxObjectLen) {n fuel labelsSeen : ℕ}
    (hnext : ∀ p ≤ data.length, Parses data p
      (if sizeAdd labelsSeen 1 > 127 then failure
        else dnsSkipLabels data fuel p (sizeAdd labelsSeen 1))
      fun w o => (0 < n ∧ IsNameTail (n - 1) w) ∧ o = p + w.length)
    (hpos : pos ≤ data.length) :
    Parses data pos (dnsSkipLabels data (fuel + 1) pos labelsSeen)
      fun w o => IsNameTail n w ∧ o = pos + w.length := by
  refine Parses.congr (Parses.skip (n := 1) hpos
    (Q := fun w₁ w₂ o => ∃ b, w₁ = [b] ∧ IsNameTail n (b :: w₂) ∧ o = pos + 1 + w₂.length)
    ?_ ?_) ?_
  · intro hshort
    rw [dnsSkipLabels, if_neg (by omega)]
    rfl
  · intro henough
    obtain ⟨b, rest, hrest⟩ := @exists_drop_eq_cons data pos (by omega)
    have hone : sizeAdd pos 1 = pos + 1 := sizeAdd_of_object hdata (by omega) (by omega)
    have htake : (data.drop pos).take 1 = [b] := by rw [hrest]; rfl
    rw [dnsSkipLabels, if_pos (by omega), readAt_of_drop hrest, lift_ok_bind, htake]
    dsimp only
    -- the format behind the byte `b`
    have hformat : ∀ w o, (∃ b', [b] = [b'] ∧ IsNameTail n (b' :: w) ∧ o = pos + 1 + w.length) ↔
        IsNameTail n (b :: w) ∧ o = pos + 1 + w.length := fun w o => by simp
    by_cases htop : b &&& 0xC0 = 0xC0
    · rw [if_pos htop]
      refine (pointer_parses hdata henough).congr fun w o _ => ?_
      rw [hformat, isNameTail_pointer htop]
    rw [if_neg htop]
    by_cases hbits : b &&& 0xC0 ≠ 0
    · rw [if_pos hbits]
      refine Parses.fail.congr fun w o _ => ?_
      rw [hformat]
      simp [not_isNameTail_reserved htop hbits]
    rw [if_neg hbits, hone]
    by_cases hzero : b = 0
    · rw [if_pos hzero]
      refine (Parses.pure (pos + 1)).congr fun w o _ => ?_
      rw [hformat, hzero, isNameTail_root]
      constructor
      · rintro ⟨rfl, rfl⟩
        simp
      · rintro ⟨rfl, rfl⟩
        simp
    have hle := (top_bits b).1 (not_not.1 hbits)
    rw [if_neg hzero, if_neg (by rw [gt_iff_lt, UInt8.lt_iff_toNat_lt]; exact not_lt.2 hle)]
    refine (label_parses hdata (by omega) hnext henough).congr fun w o _ => ?_
    rw [hformat, isNameTail_label htop hzero hle]
  · intro w o _
    constructor
    · rintro ⟨_, w₂, rfl, -, b, rfl, htail, rfl⟩
      refine ⟨htail, ?_⟩
      rw [List.length_append, List.length_singleton]
      omega
    · rintro ⟨htail, rfl⟩
      cases w with
      | nil => exact absurd htail isNameTail_ne_nil
      | cons b w =>
          refine ⟨[b], w, rfl, rfl, b, rfl, htail, ?_⟩
          rw [List.length_cons]
          omega

/-- **The loop of `dns_skip_name`** takes at most `n` labels when `127 - n` were seen. -/
theorem dnsSkipLabels_parses (hdata : data.length ≤ maxObjectLen) (n : ℕ) {labelsSeen : ℕ}
    (hseen : n + labelsSeen = 127) (hpos : pos ≤ data.length) :
    Parses data pos (dnsSkipLabels data (n + 1) pos labelsSeen)
      fun w o => IsNameTail n w ∧ o = pos + w.length := by
  have hadd : sizeAdd labelsSeen 1 = labelsSeen + 1 :=
    sizeAdd_of_le (by unfold sizeMax; omega)
  induction n generalizing pos labelsSeen with
  | zero =>
      refine dnsSkipLabels_turn hdata (fun p hp => ?_) hpos
      rw [hadd, if_pos (by omega)]
      refine Parses.fail.congr fun w o _ => ?_
      simp
  | succ n ih =>
      refine dnsSkipLabels_turn hdata (fun p hp => ?_) hpos
      rw [hadd, if_neg (by omega)]
      have hadd' : sizeAdd (labelsSeen + 1) 1 = labelsSeen + 1 + 1 :=
        sizeAdd_of_le (by unfold sizeMax; omega)
      refine (ih (by omega) hp hadd').congr fun w o _ => ?_
      simp

end Skip

/-- **`dns_skip_name`** moves the offset behind the name that begins there, and fails when none
does. -/
theorem dnsSkipName_parses {data : List UInt8} {offset : ℕ} (hdata : data.length ≤ maxObjectLen)
    (ho : offset ≤ data.length) :
    Parses data offset (dnsSkipName data offset)
      fun w o => (∃ name : DnsName, w = name.encode) ∧ o = offset + w.length := by
  have hname : ∀ w, IsNameTail 127 w ↔ ∃ name : DnsName, w = name.encode := by
    intro w
    constructor
    · rintro ⟨labels, ending, hle, hlabels, rfl⟩
      exact ⟨⟨labels, ending, hle, hlabels⟩, rfl⟩
    · rintro ⟨name, rfl⟩
      exact ⟨name.labels, name.ending, name.labels_le, name.isLabel, rfl⟩
  unfold dnsSkipName
  by_cases hend : offset ≥ data.length
  · rw [if_pos hend]
    refine Parses.fail.congr fun w o hw => ?_
    rw [← hname]
    rw [List.drop_eq_nil_of_le hend, List.prefix_nil] at hw
    rw [hw]
    simp [isNameTail_ne_nil]
  · rw [if_neg hend]
    refine (dnsSkipLabels_parses hdata 127 rfl ho).congr fun w o _ => ?_
    rw [hname]

end Netstack
