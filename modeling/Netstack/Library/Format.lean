/-
# Formats and the functions that parse them

A format says which words it has, and what each of them means: a relation between words
and values.  A function that parses a format at an offset of its input either returns
the value of a word of the format that the input continues with there, or fails when
there is none (`Parses`).  This says at once that what it accepts is well formed, that it
accepts whatever is well formed, and that it reads nothing outside of its input; and as
a function has one value, also that the word and its meaning are determined.

`Parses.bind` composes two such functions, and `Parses.pure` and `Parses.skip` are the
steps that take no element and a known number of them.
-/

import Mathlib.Data.List.Infix
import Netstack.Library.Memory

namespace Netstack

universe u v

variable {σ : Type u} {β γ : Type v} {data : List σ} {offset : ℕ}

/-- The computation `result` parses at `offset` the words of `P`: it returns the meaning of
the word there, and `none` when no word of `P` is there. -/
def Parses (data : List σ) (offset : ℕ) (result : OptionT Checked β) (P : List σ → β → Prop) :
    Prop :=
  (∃ value, result.run = .ok value) ∧
    ∀ b, result.run = .ok (some b) ↔ ∃ w, w <+: data.drop offset ∧ P w b

/-- A parser that returns and finds nothing to accept has returned nothing. -/
theorem Parses.ok_none {result : OptionT Checked β} {P : List σ → β → Prop}
    (h : Parses data offset result P) (hnot : ∀ w b, w <+: data.drop offset → ¬P w b) :
    result.run = .ok none := by
  obtain ⟨⟨value, hvalue⟩, hiff⟩ := h
  cases value with
  | none => exact hvalue
  | some b =>
      obtain ⟨w, hw, hP⟩ := (hiff b).1 hvalue
      exact absurd hP (hnot w b hw)

/-- What an access returns is handed on. -/
theorem lift_ok_bind (b : β) (next : β → OptionT Checked γ) :
    (OptionT.lift (.ok b : Checked β) >>= next) = next b := rfl

/-- A format may be replaced by one that has the same words. -/
theorem Parses.congr {result : OptionT Checked β} {P Q : List σ → β → Prop}
    (h : Parses data offset result P)
    (hPQ : ∀ w b, w <+: data.drop offset → (P w b ↔ Q w b)) : Parses data offset result Q := by
  refine ⟨h.1, fun b => (h.2 b).trans ?_⟩
  constructor
  · rintro ⟨w, hw, hP⟩
    exact ⟨w, hw, (hPQ w b hw).1 hP⟩
  · rintro ⟨w, hw, hQ⟩
    exact ⟨w, hw, (hPQ w b hw).2 hQ⟩

/-- Returning a value takes the empty word. -/
theorem Parses.pure (b : β) :
    Parses data offset (Pure.pure b : OptionT Checked β) fun w c => w = [] ∧ c = b := by
  refine ⟨⟨some b, rfl⟩, fun c => ?_⟩
  constructor
  · intro h
    exact ⟨[], List.nil_prefix, rfl, (Option.some.inj (Except.ok.inj h)).symm⟩
  · rintro ⟨w, -, -, rfl⟩
    rfl

/-- Failing parses the format without words. -/
theorem Parses.fail : Parses data offset (failure : OptionT Checked β) fun _ _ => False := by
  refine ⟨⟨none, rfl⟩, fun c => ?_⟩
  constructor
  · intro h
    exact absurd (Except.ok.inj h) (by simp)
  · rintro ⟨_, -, hfalse⟩
    exact hfalse.elim

/-- A prefix of what follows an offset ends within the input. -/
theorem offset_add_length_le {w : List σ} (ho : offset ≤ data.length)
    (h : w <+: data.drop offset) : offset + w.length ≤ data.length := by
  have hlen := h.length_le
  rw [List.length_drop] at hlen
  omega

/-- Two parts of an encoding, one behind the other. -/
theorem prefix_append_drop_iff {w₁ w₂ : List σ} :
    w₁ ++ w₂ <+: data.drop offset ↔
      w₁ <+: data.drop offset ∧ w₂ <+: data.drop (offset + w₁.length) := by
  rw [← List.drop_drop]
  constructor
  · rintro ⟨rest, hrest⟩
    rw [← hrest, List.append_assoc, List.drop_left]
    exact ⟨⟨w₂ ++ rest, rfl⟩, ⟨rest, rfl⟩⟩
  · rintro ⟨⟨rest, hrest⟩, hw⟩
    rw [← hrest, List.drop_left] at hw
    obtain ⟨rest', rfl⟩ := hw
    exact ⟨rest', by rw [← hrest, List.append_assoc]⟩

/-- **Sequencing.**  A parser behind a parser takes a word of the one and then a word of the
other. -/
theorem Parses.bind {result : OptionT Checked β} {P : List σ → β → Prop}
    {next : β → OptionT Checked γ} {Q : β → List σ → γ → Prop}
    (h : Parses data offset result P)
    (hnext : ∀ w b, w <+: data.drop offset → P w b →
      Parses data (offset + w.length) (next b) (Q b)) :
    Parses data offset (result >>= next)
      fun w c => ∃ w₁ w₂ b, w = w₁ ++ w₂ ∧ P w₁ b ∧ Q b w₂ c := by
  obtain ⟨⟨value, hvalue⟩, hiff⟩ := h
  cases value with
  | none =>
      have hrun : (result >>= next).run = .ok none := by
        rw [OptionT.run_bind, hvalue]
        rfl
      refine ⟨⟨none, hrun⟩, fun c => ?_⟩
      constructor
      · intro hsome
        exact absurd (Except.ok.inj (hrun.symm.trans hsome)) (by simp)
      · rintro ⟨w, hw, w₁, w₂, b, rfl, hP, -⟩
        have hsome := (hiff b).2 ⟨w₁, (prefix_append_drop_iff.1 hw).1, hP⟩
        exact absurd (Except.ok.inj (hvalue.symm.trans hsome)) (by simp)
  | some b =>
      have hrun : (result >>= next).run = (next b).run := by
        rw [OptionT.run_bind, hvalue]
        rfl
      obtain ⟨w, hw, hP⟩ := (hiff b).1 hvalue
      obtain ⟨hsafe, hrest⟩ := hnext w b hw hP
      refine ⟨hrun ▸ hsafe, fun c => ?_⟩
      rw [hrun]
      constructor
      · intro hc
        obtain ⟨w₂, hw₂, hQ⟩ := (hrest c).1 hc
        exact ⟨w ++ w₂, prefix_append_drop_iff.2 ⟨hw, hw₂⟩, w, w₂, b, rfl, hP, hQ⟩
      · rintro ⟨_, hpre, w₁, w₂, b', rfl, hP', hQ⟩
        have hb := (hiff b').2 ⟨w₁, (prefix_append_drop_iff.1 hpre).1, hP'⟩
        obtain rfl : b = b' := Option.some.inj (Except.ok.inj (hvalue.symm.trans hb))
        obtain ⟨hsafe', hrest'⟩ := hnext w₁ b (prefix_append_drop_iff.1 hpre).1 hP'
        exact (hrest' c).2 ⟨w₂, (prefix_append_drop_iff.1 hpre).2, hQ⟩

/-- **A known number of elements.**  A parser that fails when fewer than `n` elements are left
takes `n` elements and then what it takes behind them. -/
theorem Parses.skip {n : ℕ} {result : OptionT Checked β} {Q : List σ → List σ → β → Prop}
    (ho : offset ≤ data.length) (hshort : data.length < offset + n → result.run = .ok none)
    (henough : offset + n ≤ data.length →
      Parses data (offset + n) result (Q ((data.drop offset).take n))) :
    Parses data offset result fun w b => ∃ w₁ w₂, w = w₁ ++ w₂ ∧ w₁.length = n ∧ Q w₁ w₂ b := by
  rcases lt_or_ge data.length (offset + n) with hlt | hle
  · refine ⟨⟨none, hshort hlt⟩, fun b => ?_⟩
    rw [hshort hlt]
    constructor
    · intro h
      exact absurd (Except.ok.inj h) (by simp)
    · rintro ⟨_, hpre, w₁, w₂, rfl, hlen, -⟩
      have hw₁ := offset_add_length_le ho (prefix_append_drop_iff.1 hpre).1
      omega
  · obtain ⟨hsafe, hiff⟩ := henough hle
    have hlen : ((data.drop offset).take n).length = n := by
      rw [List.length_take, List.length_drop]
      omega
    refine ⟨hsafe, fun b => (hiff b).trans ?_⟩
    constructor
    · rintro ⟨w, hw, hQ⟩
      refine ⟨(data.drop offset).take n ++ w, prefix_append_drop_iff.2 ⟨List.take_prefix .., ?_⟩,
        _, w, rfl, hlen, hQ⟩
      rwa [hlen]
    · rintro ⟨_, hpre, w₁, w₂, rfl, rfl, hQ⟩
      obtain ⟨hw₁, hw₂⟩ := prefix_append_drop_iff.1 hpre
      exact ⟨w₂, hw₂, List.prefix_iff_eq_take.1 hw₁ ▸ hQ⟩

end Netstack
