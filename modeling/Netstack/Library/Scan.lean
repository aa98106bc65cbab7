/-
# Scanning until nothing moves

A loop that goes over a fixed list of places, changes the state at some of them,
and starts over as long as a scan changed something.  One place is handled by
`step : ι → σ → Except ε (σ × Bool)`, which returns the state after it and whether
it moved, or fails and ends the loop.

`Loop step places n s trace result` says how such a loop runs from `s`: it makes
`n` scans, handles the places of `trace` in the states given there, and ends with
`result`.  A loop that does not end has no such run, so `exists_loop` is its
termination: if every move makes a measure smaller, the loop ends within one scan
more than the measure.  `Loop.invariant` is the invariant rule, for every state in
which a place is handled and for the two kinds of end; `Loop.fixpoint` says that
after a regular end no place moves any more.
-/

import Mathlib.Algebra.Order.Group.Nat
import Mathlib.Data.List.Basic
import Mathlib.Tactic.Common

namespace Scan

variable {ι σ ε : Type*} {step : ι → σ → Except ε (σ × Bool)}

/-- One scan: the state after it, and whether it moved. -/
def scan (step : ι → σ → Except ε (σ × Bool)) : List ι → σ → Bool → Except ε (σ × Bool)
  | [], s, moved => .ok (s, moved)
  | i :: rest, s, moved =>
    match step i s with
    | .error e => .error e
    | .ok (next, move) => scan step rest next (moved || move)

/-- The places one scan handles, each with the state it is handled in. -/
def visits (step : ι → σ → Except ε (σ × Bool)) : List ι → σ → List (ι × σ)
  | [], _ => []
  | i :: rest, s =>
    (i, s) :: match step i s with
      | .error _ => []
      | .ok (next, _) => visits step rest next

/-- The loop from `s` ends with `result` after the given number of scans. -/
inductive Loop (step : ι → σ → Except ε (σ × Bool)) (places : List ι) :
    ℕ → σ → List (ι × σ) → Except ε σ → Prop
  /-- a step fails in the first scan -/
  | failed {s : σ} {e : ε} (h : scan step places s false = .error e) :
      Loop step places 1 s (visits step places s) (.error e)
  /-- the first scan does not move -/
  | done {s last : σ} (h : scan step places s false = .ok (last, false)) :
      Loop step places 1 s (visits step places s) (.ok last)
  /-- the first scan moves -/
  | again {n : ℕ} {s next : σ} {trace : List (ι × σ)} {result : Except ε σ}
      (h : scan step places s false = .ok (next, true))
      (rest : Loop step places n next trace result) :
      Loop step places (n + 1) s (visits step places s ++ trace) result

/-! ### One scan -/

theorem scan_cons_error {i : ι} {rest : List ι} {s : σ} {moved : Bool} {e : ε}
    (h : step i s = .error e) : scan step (i :: rest) s moved = .error e := by
  rw [scan, h]

theorem scan_cons_ok {i : ι} {rest : List ι} {s next : σ} {moved move : Bool}
    (h : step i s = .ok (next, move)) :
    scan step (i :: rest) s moved = scan step rest next (moved || move) := by
  rw [scan, h]

theorem visits_cons_error {i : ι} {rest : List ι} {s : σ} {e : ε} (h : step i s = .error e) :
    visits step (i :: rest) s = [(i, s)] := by
  rw [visits, h]

theorem visits_cons_ok {i : ι} {rest : List ι} {s next : σ} {move : Bool}
    (h : step i s = .ok (next, move)) :
    visits step (i :: rest) s = (i, s) :: visits step rest next := by
  rw [visits, h]

/-- What every step keeps holds wherever a scan handles a place. -/
theorem visits_invariant {I : σ → Prop}
    (hstep : ∀ i s next move, I s → step i s = .ok (next, move) → I next)
    (places : List ι) {s : σ} (hs : I s) : ∀ visit ∈ visits step places s, I visit.2 := by
  induction places generalizing s with
  | nil => exact fun visit hvisit => absurd hvisit List.not_mem_nil
  | cons i rest ih =>
      cases h : step i s with
      | error e =>
          rw [visits_cons_error h]
          exact List.forall_mem_singleton.2 hs
      | ok after =>
          obtain ⟨next, move⟩ := after
          rw [visits_cons_ok h]
          exact List.forall_mem_cons.2 ⟨hs, ih (hstep i s next move hs h)⟩

/-- What every step keeps holds after a scan. -/
theorem scan_invariant {I : σ → Prop}
    (hstep : ∀ i s next move, I s → step i s = .ok (next, move) → I next)
    {places : List ι} {s last : σ} {moved move : Bool} (hs : I s)
    (h : scan step places s moved = .ok (last, move)) : I last := by
  induction places generalizing s moved with
  | nil =>
      cases h
      exact hs
  | cons i rest ih =>
      cases hi : step i s with
      | error e =>
          rw [scan_cons_error hi] at h
          cases h
      | ok after =>
          obtain ⟨next, first⟩ := after
          rw [scan_cons_ok hi] at h
          exact ih (hstep i s next first hs hi) h

/-- A scan that fails does so at a step, in a state that keeps the invariant. -/
theorem scan_error {I : σ → Prop}
    (hstep : ∀ i s next move, I s → step i s = .ok (next, move) → I next)
    {places : List ι} {s : σ} {moved : Bool} {e : ε} (hs : I s)
    (h : scan step places s moved = .error e) : ∃ i at_, I at_ ∧ step i at_ = .error e := by
  induction places generalizing s moved with
  | nil => cases h
  | cons i rest ih =>
      cases hi : step i s with
      | error e' =>
          rw [scan_cons_error hi] at h
          cases h
          exact ⟨i, s, hs, hi⟩
      | ok after =>
          obtain ⟨next, first⟩ := after
          rw [scan_cons_ok hi] at h
          exact ih (hstep i s next first hs hi) h

/-- A move is not forgotten. -/
theorem scan_moved {places : List ι} {s last : σ} {move : Bool}
    (h : scan step places s true = .ok (last, move)) : move = true := by
  induction places generalizing s with
  | nil =>
      cases h
      rfl
  | cons i rest ih =>
      cases hi : step i s with
      | error e =>
          rw [scan_cons_error hi] at h
          cases h
      | ok after =>
          obtain ⟨next, first⟩ := after
          rw [scan_cons_ok hi, Bool.true_or] at h
          exact ih h

/-- A scan that reports no move changed nothing, and none of its places moves. -/
theorem scan_still {I : σ → Prop}
    (hstill : ∀ i s next, I s → step i s = .ok (next, false) → next = s)
    {places : List ι} {s last : σ} (hs : I s)
    (h : scan step places s false = .ok (last, false)) :
    last = s ∧ ∀ i ∈ places, step i s = .ok (s, false) := by
  induction places with
  | nil =>
      cases h
      exact ⟨rfl, fun i hi => absurd hi List.not_mem_nil⟩
  | cons i rest ih =>
      cases hi : step i s with
      | error e =>
          rw [scan_cons_error hi] at h
          cases h
      | ok after =>
          obtain ⟨next, move⟩ := after
          rw [scan_cons_ok hi, Bool.false_or] at h
          cases move with
          | true => exact absurd (scan_moved h) Bool.false_ne_true
          | false =>
              obtain rfl := hstill i s next hs hi
              obtain ⟨hlast, hrest⟩ := ih h
              exact ⟨hlast, List.forall_mem_cons.2 ⟨hi, hrest⟩⟩

/-- Where every move makes `μ` smaller, a scan that reports a move does so too. -/
theorem scan_measure {I : σ → Prop} {μ : σ → ℕ}
    (hstep : ∀ i s next move, I s → step i s = .ok (next, move) → I next)
    (hstill : ∀ i s next, I s → step i s = .ok (next, false) → next = s)
    (hmove : ∀ i s next, I s → step i s = .ok (next, true) → μ next < μ s)
    {places : List ι} {s last : σ} {moved move : Bool} (hs : I s)
    (h : scan step places s moved = .ok (last, move)) :
    μ last ≤ μ s ∧ (move = true → moved = true ∨ μ last < μ s) := by
  induction places generalizing s moved with
  | nil =>
      cases h
      exact ⟨le_rfl, Or.inl⟩
  | cons i rest ih =>
      cases hi : step i s with
      | error e =>
          rw [scan_cons_error hi] at h
          cases h
      | ok after =>
          obtain ⟨next, first⟩ := after
          rw [scan_cons_ok hi] at h
          obtain ⟨hle, hlt⟩ := ih (hstep i s next first hs hi) h
          cases first with
          | true =>
              have hnext := hmove i s next hs hi
              exact ⟨hle.trans hnext.le, fun _ => Or.inr (hle.trans_lt hnext)⟩
          | false =>
              obtain rfl := hstill i s next hs hi
              rw [Bool.or_false] at hlt
              exact ⟨hle, hlt⟩

/-! ### The loop -/

/-- **Termination.**  If every move makes `μ` smaller, the loop ends within one
scan more than `μ` says. -/
theorem exists_loop {I : σ → Prop} {μ : σ → ℕ}
    (hstep : ∀ i s next move, I s → step i s = .ok (next, move) → I next)
    (hstill : ∀ i s next, I s → step i s = .ok (next, false) → next = s)
    (hmove : ∀ i s next, I s → step i s = .ok (next, true) → μ next < μ s)
    (places : List ι) {s : σ} (hs : I s) :
    ∃ n trace result, n ≤ μ s + 1 ∧ Loop step places n s trace result := by
  induction hμ : μ s using Nat.strong_induction_on generalizing s with
  | _ m ih =>
      cases h : scan step places s false with
      | error e => exact ⟨1, _, _, by omega, .failed h⟩
      | ok after =>
          obtain ⟨next, moved⟩ := after
          cases moved with
          | false => exact ⟨1, _, _, by omega, .done h⟩
          | true =>
              have hlt : μ next < μ s :=
                ((scan_measure hstep hstill hmove hs h).2 rfl).resolve_left Bool.false_ne_true
              obtain ⟨n, trace, result, hn, hloop⟩ :=
                ih (μ next) (hμ ▸ hlt) (scan_invariant hstep hs h) rfl
              exact ⟨n + 1, _, result, by omega, .again h hloop⟩

/-- **The invariant rule.**  What every step keeps holds wherever the loop handles
a place, after a regular end, and at the step that fails. -/
theorem Loop.invariant {I : σ → Prop}
    (hstep : ∀ i s next move, I s → step i s = .ok (next, move) → I next)
    {places : List ι} {n : ℕ} {s : σ} {trace : List (ι × σ)} {result : Except ε σ}
    (h : Loop step places n s trace result) (hs : I s) :
    (∀ visit ∈ trace, I visit.2) ∧ (∀ last, result = .ok last → I last) ∧
      ∀ e, result = .error e → ∃ i at_, I at_ ∧ step i at_ = .error e := by
  induction h with
  | failed h =>
      refine ⟨visits_invariant hstep _ hs, ?_, ?_⟩
      · rintro last ⟨⟩
      · rintro e ⟨⟩
        exact scan_error hstep hs h
  | done h =>
      refine ⟨visits_invariant hstep _ hs, ?_, ?_⟩
      · rintro last ⟨⟩
        exact scan_invariant hstep hs h
      · rintro e ⟨⟩
  | again h _ ih =>
      obtain ⟨htrace, hresult⟩ := ih (scan_invariant hstep hs h)
      exact ⟨List.forall_mem_append.2 ⟨visits_invariant hstep _ hs, htrace⟩, hresult⟩

/-- **The fixpoint.**  After a regular end no place moves. -/
theorem Loop.fixpoint {I : σ → Prop}
    (hstep : ∀ i s next move, I s → step i s = .ok (next, move) → I next)
    (hstill : ∀ i s next, I s → step i s = .ok (next, false) → next = s)
    {places : List ι} {n : ℕ} {s last : σ} {trace : List (ι × σ)}
    (h : Loop step places n s trace (.ok last)) (hs : I s) :
    ∀ i ∈ places, step i last = .ok (last, false) := by
  generalize hresult : Except.ok last = result at h
  induction h with
  | failed => cases hresult
  | done h =>
      cases hresult
      obtain ⟨rfl, hplaces⟩ := scan_still hstill hs h
      exact hplaces
  | again h _ ih => exact ih (scan_invariant hstep hs h) hresult

end Scan
