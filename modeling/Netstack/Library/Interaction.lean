/-
# Programs that talk to their surroundings

A program reads and changes a state and either returns a value or stops.  What the
surroundings are going to answer is a part of the state, and so is what was said to them,
so that a run is a function of the answers; a program that needs an answer which the
state does not hold stops there.

`wp p Q E s` says that the run of `p` from `s` ends in `Q` when it returns and in `E`
when it stops.  Both outcomes are final states, so `E` is where one says what holds at
every moment a run can be interrupted at.  `wp_bind` reads a sequence from the outside in, and
`wp_forever` is the rule for a loop without a condition, which is left from its body: an
invariant, and a measure of the answers that are left, which every round uses up.
-/

import Mathlib.Data.Nat.Notation
import Mathlib.Tactic.Common

namespace Interaction

variable {ε σ α β : Type}

/-- A program with states in `σ` that returns an `α` or stops with an `ε`. -/
def Program (ε σ α : Type) : Type := σ → Except ε α × σ

namespace Program

/-- The outcome of the first program is handed on, unless that stopped. -/
def andThen (p : Program ε σ α) (next : α → Program ε σ β) : Program ε σ β := fun s =>
  match p s with
  | (.ok a, s) => next a s
  | (.error e, s) => (.error e, s)

instance : Monad (Program ε σ) where
  pure a := fun s => (.ok a, s)
  bind := andThen

/-- The program that stops. -/
def stop (e : ε) : Program ε σ α := fun s => (.error e, s)

/-- The program that changes the state. -/
def change (f : σ → σ) : Program ε σ Unit := fun s => (.ok (), f s)

/-- The program that takes an answer out of the state, or stops when there is none. -/
def answer (take : σ → Option (α × σ)) (none : ε) : Program ε σ α := fun s =>
  match take s with
  | some (a, s) => (.ok a, s)
  | .none => (.error none, s)

/-- How a round of a loop ends: with the values of its variables, or with a result. -/
inductive Round (β α : Type) where
  | again (b : β)
  | leave (a : α)

/-- A loop of at most `fuel` rounds. -/
def loop (body : β → Program ε σ (Round β α)) (out : ε) : ℕ → β → Program ε σ α
  | 0, _ => stop out
  | fuel + 1, b => do
    match ← body b with
    | .again b => loop body out fuel b
    | .leave a => return a

/-- A loop that is left from its body.  Each round has to use up something of the state, which
`measure` counts, and the program stops with `out` if one does not. -/
def forever (measure : σ → ℕ) (out : ε) (body : β → Program ε σ (Round β α)) (b : β) :
    Program ε σ α := fun s => loop body out (measure s + 1) b s

/-- The run from `s` returns in `Q` or stops in `E`. -/
def wp (p : Program ε σ α) (Q : α → σ → Prop) (E : ε → σ → Prop) (s : σ) : Prop :=
  match p s with
  | (.ok a, s) => Q a s
  | (.error e, s) => E e s

section Rules

variable {p : Program ε σ α} {next : α → Program ε σ β} {Q : α → σ → Prop} {R : β → σ → Prop}
  {E : ε → σ → Prop} {s : σ}

@[simp] theorem wp_pure (a : α) : wp (pure a : Program ε σ α) Q E s ↔ Q a s := Iff.rfl

@[simp] theorem wp_stop (e : ε) : wp (stop e : Program ε σ α) Q E s ↔ E e s := Iff.rfl

@[simp] theorem wp_change (f : σ → σ) {Q : Unit → σ → Prop} :
    wp (change f : Program ε σ Unit) Q E s ↔ Q () (f s) := Iff.rfl

/-- **A sequence** is read from the outside in. -/
@[simp] theorem wp_bind : wp (p >>= next) R E s ↔ wp p (fun a => wp (next a) R E) E s := by
  show wp (andThen p next) R E s ↔ _
  unfold wp andThen
  rcases p s with ⟨_ | a, s⟩ <;> exact Iff.rfl

/-- Asking the environment: what is to hold has to hold for every answer, and where there is none
the program stops. -/
theorem wp_answer {take : σ → Option (α × σ)} {e : ε}
    (hsome : ∀ a s', take s = some (a, s') → Q a s') (hnone : take s = none → E e s) :
    wp (answer take e) Q E s := by
  unfold wp answer
  cases h : take s with
  | none => exact hnone h
  | some out => exact hsome _ _ h

@[simp] theorem wp_ite {c : Prop} [Decidable c] {q : Program ε σ α} :
    wp (if c then p else q) Q E s ↔ if c then wp p Q E s else wp q Q E s := by
  split_ifs <;> exact Iff.rfl

/-- **The rule of consequence.** -/
theorem wp_mono {Q' : α → σ → Prop} {E' : ε → σ → Prop} (h : wp p Q E s)
    (hQ : ∀ a s', Q a s' → Q' a s') (hE : ∀ e s', E e s' → E' e s') : wp p Q' E' s := by
  unfold wp at h ⊢
  rcases hp : p s with ⟨e | a, s'⟩ <;> rw [hp] at h
  · exact hE e s' h
  · exact hQ a s' h

/-- Two properties of one run. -/
theorem wp_and {Q' : α → σ → Prop} {E' : ε → σ → Prop} (h : wp p Q E s) (h' : wp p Q' E' s) :
    wp p (fun a s' => Q a s' ∧ Q' a s') (fun e s' => E e s' ∧ E' e s') s := by
  unfold wp at h h' ⊢
  rcases hp : p s with ⟨e | a, s'⟩ <;> rw [hp] at h h' <;> exact ⟨h, h'⟩

/-- What is known of a run holds where it returns. -/
theorem wp.returned {a : α} (h : wp p Q E s) (hrun : (p s).1 = .ok a) : Q a (p s).2 := by
  unfold wp at h
  rcases hp : p s with ⟨e | b, s'⟩ <;> rw [hp] at h hrun
  · cases hrun
  · obtain rfl := Except.ok.inj hrun
    exact h

/-- What is known of a run holds where it stops. -/
theorem wp.stopped {e : ε} (h : wp p Q E s) (hrun : (p s).1 = .error e) : E e (p s).2 := by
  unfold wp at h
  rcases hp : p s with ⟨e' | b, s'⟩ <;> rw [hp] at h hrun
  · obtain rfl := Except.error.inj hrun
    exact h
  · cases hrun

/-- What holds however the run ends. -/
theorem wp.after {P : σ → Prop} (h : wp p Q E s) (hQ : ∀ a s', Q a s' → P s')
    (hE : ∀ e s', E e s' → P s') : P (p s).2 := by
  unfold wp at h
  rcases hp : p s with ⟨e | a, s'⟩ <;> rw [hp] at h
  · exact hE e s' h
  · exact hQ a s' h

/-- A run that does not stop returns. -/
theorem wp.total (h : wp p Q (fun _ _ => False) s) : ∃ a, (p s).1 = .ok a ∧ Q a (p s).2 := by
  unfold wp at h
  rcases hp : p s with ⟨e | a, s'⟩ <;> rw [hp] at h
  · exact h.elim
  · exact ⟨a, rfl, h⟩

end Rules

section Loop

variable {body : β → Program ε σ (Round β α)} {out : ε} {Q : α → σ → Prop} {E : ε → σ → Prop}
  {I : β → σ → Prop} {measure : σ → ℕ}

/-- A round goes on within the invariant and below the measure, or leaves in `Q`. -/
def RoundKeeps (I : β → σ → Prop) (measure : σ → ℕ) (Q : α → σ → Prop) (s : σ) :
    Round β α → σ → Prop
  | .again b, s' => I b s' ∧ measure s' < measure s
  | .leave a, s' => Q a s'

/-- **The rule for loops**: each round keeps the invariant and uses something up, so that fuel
for all of it is enough. The induction is on the fuel. -/
theorem wp_loop (hbody : ∀ b s, I b s → wp (body b) (RoundKeeps I measure Q s) E s) {fuel : ℕ}
    {b : β} {s : σ} (hI : I b s) (hfuel : measure s < fuel) : wp (loop body out fuel b) Q E s := by
  induction fuel generalizing b s with
  | zero => exact absurd hfuel (Nat.not_lt_zero _)
  | succ fuel ih =>
      rw [loop, wp_bind]
      refine wp_mono (hbody b s hI) (fun round s' hround => ?_) fun _ _ h => h
      cases round with
      | again b => exact ih hround.1 (Nat.lt_of_lt_of_le hround.2 (Nat.le_of_lt_succ hfuel))
      | leave a => exact hround

/-- **The rule for loops.**  What every round keeps, while it uses up the state, holds where the
loop is left. -/
theorem wp_forever (hbody : ∀ b s, I b s → wp (body b) (RoundKeeps I measure Q s) E s) {b : β}
    {s : σ} (hI : I b s) : wp (forever measure out body b) Q E s :=
  wp_loop hbody hI (Nat.lt_succ_self _)

end Loop

end Program

end Interaction
