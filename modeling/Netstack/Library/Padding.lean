/-
# Padding

A list whose elements outside of the padding `p` stand together has the padding around them
(`IsPadded`); any other has some of it in between (`IsSplit`), and no list has both
(`not_isSplit_iff`).
-/

import Mathlib.Data.List.Basic

namespace Netstack

section Padding

variable {α : Type*} (p : α → Prop)

/-- `w` is `core` with padding around it. -/
def IsPadded (w core : List α) : Prop :=
  ∃ before after, w = before ++ core ++ after ∧ (∀ c ∈ before, p c) ∧ (∀ c ∈ after, p c) ∧
    ∀ c ∈ core, ¬p c

/-- `w` has padding between two other elements. -/
def IsSplit (w : List α) : Prop :=
  ∃ before c gap d after, w = before ++ c :: gap ++ d :: after ∧ ¬p c ∧ ¬p d ∧ gap ≠ [] ∧
    ∀ c ∈ gap, p c

variable {p} {w core : List α}

/-- What is not padding is the core. -/
theorem IsPadded.filter_eq [DecidablePred p] (h : IsPadded p w core) :
    (w.filter fun c => ¬p c) = core := by
  obtain ⟨before, after, rfl, hbefore, hafter, hcore⟩ := h
  have hnone : ∀ {padding : List α}, (∀ c ∈ padding, p c) →
      (padding.filter fun c => ¬p c) = [] := fun hpadding =>
    List.filter_eq_nil_iff.2 fun c hc => by simp [hpadding c hc]
  have hall : (core.filter fun c => ¬p c) = core :=
    List.filter_eq_self.2 fun c hc => by simp [hcore c hc]
  rw [List.filter_append, List.filter_append, hnone hbefore, hnone hafter, hall]
  simp

theorem IsSplit.cons (h : IsSplit p w) (c : α) : IsSplit p (c :: w) := by
  obtain ⟨before, d, gap, e, after, rfl, h⟩ := h
  exact ⟨c :: before, d, gap, e, after, rfl, h⟩

/-- Either what is not padding stands together, or there is padding inside of it; the induction
is on the word. -/
theorem isPadded_or_isSplit [DecidablePred p] (w : List α) :
    (∃ core, IsPadded p w core) ∨ IsSplit p w := by
  induction w with
  | nil => exact Or.inl ⟨[], [], [], rfl, by simp, by simp, by simp⟩
  | cons c w ih =>
      rcases ih with ⟨core, before, after, rfl, hbefore, hafter, hcore⟩ | hsplit
      swap
      · exact Or.inr (hsplit.cons c)
      by_cases hc : p c
      · exact Or.inl ⟨core, c :: before, after, rfl, by simpa [hc] using hbefore, hafter, hcore⟩
      cases core with
      | nil =>
          refine Or.inl ⟨[c], [], before ++ after, by simp, by simp, ?_, by simpa using hc⟩
          intro d hd
          exact (List.mem_append.1 hd).elim (hbefore d) (hafter d)
      | cons d core =>
          cases before with
          | nil => exact Or.inl ⟨c :: d :: core, [], after, rfl, by simp, hafter,
              by simpa [hc] using hcore⟩
          | cons b before =>
              exact Or.inr ⟨[], c, b :: before, d, core ++ after, by simp, hc,
                hcore d (List.mem_cons_self ..), by simp, hbefore⟩

/-- The first element of a core stands before all that follows it. -/
theorem not_isSplit_core {after : List α} (hafter : ∀ c ∈ after, p c) (hcore : ∀ c ∈ core, ¬p c) :
    ¬IsSplit p (core ++ after) := by
  rintro ⟨before, c, gap, d, rest, h, hc, hd, hgap, hblank⟩
  induction core generalizing before with
  | nil =>
      obtain rfl : after = before ++ c :: gap ++ d :: rest := h
      exact hd (hafter d (by simp))
  | cons e core ih =>
      have hrest : ∀ c ∈ core, ¬p c := fun c hc => hcore c (List.mem_cons_of_mem _ hc)
      cases before with
      | cons b before =>
          exact ih hrest before (List.cons.inj h).2
      | nil =>
          have htail : core ++ after = gap ++ d :: rest := (List.cons.inj h).2
          obtain ⟨b, gap, rfl⟩ := List.exists_cons_of_ne_nil hgap
          cases core with
          | nil =>
              obtain rfl : after = b :: gap ++ d :: rest := htail
              exact hd (hafter d (by simp))
          | cons f core =>
              obtain ⟨rfl, -⟩ := List.cons.inj htail
              exact hrest f (List.mem_cons_self ..) (hblank f (List.mem_cons_self ..))

/-- Both cannot be, since padding inside of the core would be a part of it. -/
theorem IsPadded.not_isSplit (h : IsPadded p w core) : ¬IsSplit p w := by
  obtain ⟨before, after, rfl, hbefore, hafter, hcore⟩ := h
  induction before with
  | nil => exact not_isSplit_core hafter hcore
  | cons b before ih =>
      rintro ⟨front, c, gap, d, rest, h, hc, hd, hgap, hblank⟩
      cases front with
      | nil => exact hc ((List.cons.inj h).1 ▸ hbefore b (List.mem_cons_self ..))
      | cons a front =>
          exact ih (fun c hc => hbefore c (List.mem_cons_of_mem _ hc))
            ⟨front, c, gap, d, rest, (List.cons.inj h).2, hc, hd, hgap, hblank⟩

/-- **Padded or split**, and not both. -/
theorem not_isSplit_iff [DecidablePred p] : ¬IsSplit p w ↔ ∃ core, IsPadded p w core := by
  constructor
  · exact (isPadded_or_isSplit w).resolve_right
  · rintro ⟨core, hcore⟩
    exact hcore.not_isSplit

end Padding

end Netstack
