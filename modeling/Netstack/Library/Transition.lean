/-
# Runs of a deterministic transition system

A system is a function `step : σ → ι → σ` from a state and an input to the next
state.  A run is a list of inputs, and every state a run reaches is
`run step s is` for a prefix `is` of it.

Two rules carry the developments that use this file.  `Along.run_invariant`
derives a property of every reached state from its preservation by one step,
where the step may rely on a condition that the run is known to meet.
`along_congr` replaces one condition on the steps of a run by another that is
equivalent to it wherever the invariant holds; only the steps that meet the
condition have to keep the invariant, so it says exactly which runs meet a
condition whose first failure destroys the invariant.  `run_related` compares two
runs whose inputs correspond.  `Always` is the reading of
a condition on states as one on all states of a run, and `always_iff` brings it
into the form the two rules are about.
-/

import Mathlib.Data.List.Basic
import Mathlib.Tactic.Common

namespace Transition

variable {σ ι : Type*} {step : σ → ι → σ}

/-- The state after the inputs `is`, from `s`. -/
def run (step : σ → ι → σ) (s : σ) (is : List ι) : σ := is.foldl step s

@[simp] theorem run_nil (s : σ) : run step s [] = s := rfl

@[simp] theorem run_cons (s : σ) (i : ι) (is : List ι) :
    run step s (i :: is) = run step (step s i) is := rfl

theorem run_append (s : σ) (is js : List ι) :
    run step s (is ++ js) = run step (run step s is) js := List.foldl_append

/-- Every step of the run `is` from `s` meets `P` at the state it is taken in. -/
def Along (step : σ → ι → σ) (P : σ → ι → Prop) : σ → List ι → Prop
  | _, [] => True
  | s, i :: is => P s i ∧ Along step P (step s i) is

instance decidableAlong (P : σ → ι → Prop) [∀ s i, Decidable (P s i)] :
    ∀ (s : σ) (is : List ι), Decidable (Along step P s is)
  | _, [] => isTrue trivial
  | s, i :: is =>
    haveI := decidableAlong P (step s i) is
    inferInstanceAs (Decidable (_ ∧ _))

@[simp] theorem along_nil (P : σ → ι → Prop) (s : σ) : Along step P s [] := trivial

@[simp] theorem along_cons {P : σ → ι → Prop} {s : σ} {i : ι} {is : List ι} :
    Along step P s (i :: is) ↔ P s i ∧ Along step P (step s i) is := Iff.rfl

/-- A run in two parts. -/
theorem along_append {P : σ → ι → Prop} {s : σ} {is js : List ι} :
    Along step P s (is ++ js) ↔ Along step P s is ∧ Along step P (run step s is) js := by
  induction is generalizing s with
  | nil => simp
  | cons i is ih => simp only [List.cons_append, along_cons, ih, run_cons, and_assoc]

/-- Two conditions along one run. -/
theorem along_and {P Q : σ → ι → Prop} {s : σ} {is : List ι} :
    Along step (fun s i => P s i ∧ Q s i) s is ↔ Along step P s is ∧ Along step Q s is := by
  induction is generalizing s with
  | nil => simp
  | cons i is ih =>
      simp only [along_cons, ih]
      exact and_and_and_comm

/-- **The invariant rule.**  What the steps of a run keep, while they meet `P`,
holds of the state the run ends in. -/
theorem Along.run_invariant {P : σ → ι → Prop} {I : σ → Prop}
    (hstep : ∀ s i, I s → P s i → I (step s i)) {s : σ} {is : List ι}
    (hs : I s) (hP : Along step P s is) : I (run step s is) := by
  induction is generalizing s with
  | nil => exact hs
  | cons i is ih => exact ih (hstep s i hs hP.1) hP.2

/-- The invariant rule for a property that every step keeps. -/
theorem run_invariant {I : σ → Prop} (hstep : ∀ s i, I s → I (step s i)) {s : σ}
    (is : List ι) (hs : I s) : I (run step s is) := by
  induction is generalizing s with
  | nil => exact hs
  | cons i is ih => exact ih (hstep s i hs)

/-- **The rule for two runs.**  Inputs that correspond keep a relation between the states. -/
theorem run_related {τ κ : Type*} {step' : τ → κ → τ} {f : ι → κ} {R : σ → τ → Prop}
    (hstep : ∀ s t i, R s t → R (step s i) (step' t (f i))) {s : σ} {t : τ}
    (is : List ι) (hst : R s t) : R (run step s is) (run step' t (is.map f)) := by
  induction is generalizing s t with
  | nil => exact hst
  | cons i is ih => exact ih (hstep s t i hst)

/-- The invariant rule for an invariant that also speaks of the inputs so far. -/
theorem Along.run_invariant_trace {P : σ → ι → Prop} {I : σ → List ι → Prop}
    (hstep : ∀ s before i, I s before → P s i → I (step s i) (before ++ [i])) {s : σ}
    {before is : List ι} (hs : I s before) (hP : Along step P s is) :
    I (run step s is) (before ++ is) := by
  induction is generalizing s before with
  | nil => rwa [List.append_nil]
  | cons i is ih =>
      have hnext := ih (hstep s before i hs hP.1) hP.2
      rwa [List.append_assoc] at hnext

/-- **Replacing the condition on the steps.**  Where the invariant makes `P` and
`Q` the same condition and the steps that meet it keep the invariant, the runs
whose steps meet `P` are those whose steps meet `Q`. -/
theorem along_congr {P Q : σ → ι → Prop} {I : σ → Prop}
    (hPQ : ∀ s i, I s → (P s i ↔ Q s i)) (hstep : ∀ s i, I s → Q s i → I (step s i))
    {s : σ} (is : List ι) (hs : I s) : Along step P s is ↔ Along step Q s is := by
  induction is generalizing s with
  | nil => simp
  | cons i is ih =>
      simp only [along_cons]
      refine and_congr_left' (hPQ s i hs) |>.trans (and_congr_right fun hQ => ?_)
      exact ih (hstep s i hs hQ)

/-- A weaker condition along the same run. -/
theorem Along.mono {P Q : σ → ι → Prop} (h : ∀ s i, P s i → Q s i) {s : σ} {is : List ι}
    (hP : Along step P s is) : Along step Q s is := by
  induction is generalizing s with
  | nil => trivial
  | cons i is ih => exact ⟨h s i hP.1, ih hP.2⟩

/-- What the invariant implies of a step holds along every run. -/
theorem along_of_invariant {P : σ → ι → Prop} {I : σ → Prop}
    (hstep : ∀ s i, I s → I (step s i)) (hP : ∀ s i, I s → P s i) {s : σ} (is : List ι)
    (hs : I s) : Along step P s is := by
  induction is generalizing s with
  | nil => trivial
  | cons i is ih => exact ⟨hP s i hs, ih (hstep s i hs)⟩

/-- **From one condition on the steps to another.**  Steps that meet `P` keep the
invariant and meet `Q`. -/
theorem Along.imp_of_invariant {P Q : σ → ι → Prop} {I : σ → Prop} {s : σ} {is : List ι}
    (hP : Along step P s is) (hstep : ∀ s i, I s → P s i → I (step s i))
    (hQ : ∀ s i, I s → P s i → Q s i) (hs : I s) : Along step Q s is := by
  induction is generalizing s with
  | nil => trivial
  | cons i is ih => exact ⟨hQ s i hs hP.1, ih hP.2 (hstep s i hs hP.1)⟩

/-- **Looking back from the end.**  When every step moves the state up in a preorder, every step
of a run is taken in a state below the last one. -/
theorem Along.le_last {P : σ → ι → Prop} {I : σ → Prop} {R : σ → σ → Prop}
    (hrefl : ∀ s, R s s) (htrans : ∀ {s t u}, R s t → R t u → R s u)
    (hstep : ∀ s i, I s → P s i → I (step s i) ∧ R s (step s i)) {s : σ} {is : List ι}
    (hs : I s) (hP : Along step P s is) :
    R s (run step s is) ∧ Along step (fun t i => (P t i ∧ I t) ∧ R t (run step s is)) s is := by
  induction is generalizing s with
  | nil => exact ⟨hrefl s, trivial⟩
  | cons i is ih =>
      obtain ⟨hnext, hup⟩ := hstep s i hs hP.1
      obtain ⟨hlast, hrest⟩ := ih hnext hP.2
      exact ⟨htrans hup hlast, ⟨⟨hP.1, hs⟩, htrans hup hlast⟩, hrest⟩

/-- A condition on the inputs alone holds along a run when every input meets it. -/
theorem along_of_forall {P : ι → Prop} {s : σ} {is : List ι} (h : ∀ i ∈ is, P i) :
    Along step (fun _ i => P i) s is := by
  induction is generalizing s with
  | nil => trivial
  | cons i is ih =>
      exact ⟨h i (List.mem_cons_self ..), ih fun j hj => h j (List.mem_cons_of_mem _ hj)⟩

/-- Every state that the run `is` from `s` passes meets `P`, the first and the last included. -/
def Always (step : σ → ι → σ) (P : σ → Prop) (s : σ) (is : List ι) : Prop :=
  ∀ js, js <+: is → P (run step s js)

/-- A run passes its first state and the states its steps lead to. -/
theorem always_iff {P : σ → Prop} {s : σ} {is : List ι} :
    Always step P s is ↔ P s ∧ Along step (fun s i => P (step s i)) s is := by
  induction is generalizing s with
  | nil => simp [Always]
  | cons i is ih =>
      rw [along_cons, ← ih]
      constructor
      · intro h
        exact ⟨h [] (List.nil_prefix ..), fun js hjs => h (i :: js) (List.prefix_cons_inj i |>.2 hjs)⟩
      · rintro ⟨hs, h⟩ js hjs
        rcases List.prefix_cons_iff.1 hjs with rfl | ⟨js, rfl, hpre⟩
        · exact hs
        · exact h js hpre

end Transition
