/-
# A timer with a changing timeout

A timer that is told how much time has passed adds it up.  Once the sum reaches the
timeout it fires: it starts again with the next timeout while firings are left, and
otherwise it gives up and is off.  Time is a natural number here and the next timeout
any function of the last, so that a program's counters are compared with this timer
where they saturate or wrap.

`events` are the answers to a list of ticks.  `after_eq` reads the timer off the
answers: how long it has waited since it last fired, and how often it has fired.
`giveUp_mem_events` says that it comes to its end in enough time, however the time is
cut into ticks.
-/

import Mathlib.Algebra.BigOperators.Group.List.Basic
import Mathlib.Algebra.Order.Ring.Nat
import Mathlib.Logic.Function.Iterate
import Mathlib.Tactic.Common

namespace Backoff

/-- A running timer: the time since it was started, the time at which it fires, and how
often it can still fire before it gives up. -/
structure Timer where
  waited : ℕ
  timeout : ℕ
  left : ℕ
deriving DecidableEq

/-- The answer to a tick. -/
inductive Event where
  | off
  | wait
  | fire
  | giveUp
deriving DecidableEq

variable (next : ℕ → ℕ)

/-- One tick of `elapsed` time; `none` is a timer that is off. -/
def tick : Option Timer → ℕ → Event × Option Timer
  | none, _ => (.off, none)
  | some timer, elapsed =>
    if timer.waited + elapsed < timer.timeout then
      (.wait, some { timer with waited := timer.waited + elapsed })
    else if timer.left = 0 then (.giveUp, none)
    else (.fire, some ⟨0, next timer.timeout, timer.left - 1⟩)

/-- The answers to a list of ticks. -/
def events : Option Timer → List ℕ → List Event
  | _, [] => []
  | timer, elapsed :: rest => (tick next timer elapsed).1 :: events (tick next timer elapsed).2 rest

/-- The timer after a list of ticks. -/
def after : Option Timer → List ℕ → Option Timer
  | timer, [] => timer
  | timer, elapsed :: rest => after (tick next timer elapsed).2 rest

/-- The time since the timer last fired, read off its answers; `waited` is the time before
the first tick. -/
def waitedSince : ℕ → List ℕ → List Event → ℕ
  | waited, elapsed :: rest, event :: events =>
    waitedSince (if event = .fire then 0 else waited + elapsed) rest events
  | waited, [], _ => waited
  | waited, _ :: _, [] => waited

/-- Ticks that follow others find the timer as those have left it. -/
theorem events_append (timer : Option Timer) (ticks more : List ℕ) :
    events next timer (ticks ++ more) =
      events next timer ticks ++ events next (after next timer ticks) more := by
  induction ticks generalizing timer with
  | nil => rfl
  | cons elapsed rest ih => exact congrArg _ (ih _)

@[simp] theorem after_none (ticks : List ℕ) : after next none ticks = none := by
  induction ticks with
  | nil => rfl
  | cons elapsed rest ih => exact ih

/-- A timer that is off stays off. -/
@[simp] theorem events_none (ticks : List ℕ) :
    events next none ticks = List.replicate ticks.length .off := by
  induction ticks with
  | nil => rfl
  | cons elapsed rest ih =>
      rw [List.length_cons, List.replicate_succ, ← ih]
      rfl

/-- A tick of a running timer lets it wait, or fire, or give up. -/
theorem tick_cases (timer : Timer) (elapsed : ℕ) :
    (timer.waited + elapsed < timer.timeout ∧ tick next (some timer) elapsed =
        (.wait, some { timer with waited := timer.waited + elapsed })) ∨
      (timer.timeout ≤ timer.waited + elapsed ∧ timer.left = 0 ∧
        tick next (some timer) elapsed = (.giveUp, none)) ∨
      (timer.timeout ≤ timer.waited + elapsed ∧ 0 < timer.left ∧
        tick next (some timer) elapsed =
          (.fire, some ⟨0, next timer.timeout, timer.left - 1⟩)) := by
  unfold tick
  by_cases hwait : timer.waited + elapsed < timer.timeout
  · exact Or.inl ⟨hwait, if_pos hwait⟩
  by_cases hleft : timer.left = 0
  · exact Or.inr (Or.inl ⟨by omega, hleft, by simp [hwait, hleft]⟩)
  · exact Or.inr (Or.inr ⟨by omega, by omega, by simp [hwait, hleft]⟩)

/-- **The timer read off its answers.**  It is off once it has given up; before that it has
waited since it last fired, and it has fired as often as its answers say. -/
theorem after_eq (timer : Timer) (ticks : List ℕ) :
    (events next (some timer) ticks).count .fire ≤ timer.left ∧
      after next (some timer) ticks =
        if .giveUp ∈ events next (some timer) ticks then none
        else some ⟨waitedSince timer.waited ticks (events next (some timer) ticks),
          next^[(events next (some timer) ticks).count .fire] timer.timeout,
          timer.left - (events next (some timer) ticks).count .fire⟩ := by
  induction ticks generalizing timer with
  | nil => simp [events, after, waitedSince]
  | cons elapsed rest ih =>
      rcases tick_cases next timer elapsed with ⟨-, h⟩ | ⟨-, hleft, h⟩ | ⟨-, hleft, h⟩
      · obtain ⟨hcount, hafter⟩ := ih { timer with waited := timer.waited + elapsed }
        simp only [events, after, waitedSince, h, hafter, List.mem_cons, List.count_cons]
        simpa using hcount
      · simp [events, after, h, List.count_replicate]
      · obtain ⟨hcount, hafter⟩ := ih ⟨0, next timer.timeout, timer.left - 1⟩
        simp only [events, after, waitedSince, h, hafter, List.mem_cons, List.count_cons]
        simp only [reduceCtorEq, false_or, beq_self_eq_true, if_true]
        dsimp only at hcount
        refine ⟨by omega, ?_⟩
        rw [Function.iterate_succ_apply, Nat.sub_sub, Nat.add_comm 1]

/-- A timer that has given up has fired as often as it could. -/
theorem count_fire_of_giveUp {timer : Timer} {ticks : List ℕ}
    (h : .giveUp ∈ events next (some timer) ticks) :
    (events next (some timer) ticks).count .fire = timer.left := by
  induction ticks generalizing timer with
  | nil => simp [events] at h
  | cons elapsed rest ih =>
      rcases tick_cases next timer elapsed with ⟨-, heq⟩ | ⟨-, hleft, heq⟩ | ⟨-, hleft, heq⟩
      · simp only [events, heq, List.mem_cons, reduceCtorEq, false_or] at h ⊢
        simpa using ih h
      · simp [events, heq, hleft, List.count_replicate]
      · simp only [events, heq, List.mem_cons, reduceCtorEq, false_or] at h ⊢
        have hrest := ih h
        rw [List.count_cons_self, hrest]
        exact Nat.sub_add_cancel hleft

/-! ### Coming to the end -/

/-- Time that only makes the timer wait stays below its timeout. -/
theorem sum_lt_timeout {timer : Timer} {ticks : List ℕ} (hne : ticks ≠ [])
    (hwait : ∀ event ∈ events next (some timer) ticks, event = .wait) :
    timer.waited + ticks.sum < timer.timeout := by
  induction ticks generalizing timer with
  | nil => exact absurd rfl hne
  | cons elapsed rest ih =>
      rcases tick_cases next timer elapsed with ⟨hlt, heq⟩ | ⟨-, -, heq⟩ | ⟨-, -, heq⟩
      · rw [List.sum_cons, ← Nat.add_assoc]
        cases rest with
        | nil => simpa using hlt
        | cons second others =>
            refine @ih { timer with waited := timer.waited + elapsed } (by simp) ?_
            intro event hmem
            refine hwait event ?_
            rw [events, heq]
            exact List.mem_cons_of_mem _ hmem
      · have := hwait .giveUp (by rw [events, heq]; exact List.mem_cons_self)
        exact Event.noConfusion this
      · have := hwait .fire (by rw [events, heq]; exact List.mem_cons_self)
        exact Event.noConfusion this

/-- A running timer does not answer that it is off before it has given up. -/
theorem off_not_mem {timer : Timer} {ticks : List ℕ}
    (h : .giveUp ∉ events next (some timer) ticks) : .off ∉ events next (some timer) ticks := by
  induction ticks generalizing timer with
  | nil => simp [events]
  | cons elapsed rest ih =>
      rcases tick_cases next timer elapsed with ⟨-, heq⟩ | ⟨-, -, heq⟩ | ⟨-, -, heq⟩
      · simp only [events, heq, List.mem_cons, reduceCtorEq, false_or] at h ⊢
        exact ih h
      · simp [events, heq] at h
      · simp only [events, heq, List.mem_cons, reduceCtorEq, false_or] at h ⊢
        exact ih h

/-- As much time as the timeout makes the timer fire or give up. -/
theorem fire_mem_events {timer : Timer} {ticks : List ℕ} (hpos : 0 < ticks.sum)
    (hsum : timer.timeout ≤ ticks.sum) (h : .giveUp ∉ events next (some timer) ticks) :
    .fire ∈ events next (some timer) ticks := by
  by_contra hfire
  have hne : ticks ≠ [] := by
    rintro rfl
    exact absurd hpos (by simp)
  have hlt := sum_lt_timeout next hne fun event hmem => by
    cases event with
    | wait => rfl
    | off => exact absurd hmem (off_not_mem next h)
    | fire => exact absurd hmem hfire
    | giveUp => exact absurd hmem h
  omega

/-- **Enough time brings the timer to its end.**  When no timeout is above `bound`, more
blocks of `bound` time than firings are left make it give up. -/
theorem giveUp_mem_events {bound : ℕ} (hpos : 0 < bound) (blocks : List (List ℕ))
    {timer : Timer} (hbound : ∀ k, next^[k] timer.timeout ≤ bound)
    (hblocks : ∀ ticks ∈ blocks, bound ≤ ticks.sum) (hlen : timer.left < blocks.length) :
    .giveUp ∈ events next (some timer) blocks.flatten := by
  induction blocks generalizing timer with
  | nil => exact absurd hlen (Nat.not_lt_zero _)
  | cons ticks blocks ih =>
      rw [List.flatten_cons, events_append, List.mem_append]
      by_cases hgone : .giveUp ∈ events next (some timer) ticks
      · exact Or.inl hgone
      have hsum := hblocks ticks List.mem_cons_self
      have htimeout : timer.timeout ≤ bound := hbound 0
      have hfire := fire_mem_events next (by omega) (Nat.le_trans htimeout hsum) hgone
      have hcount := List.count_pos_iff.2 hfire
      obtain ⟨hle, hafter⟩ := after_eq next timer ticks
      rw [hafter, if_neg hgone]
      refine Or.inr (ih (fun k => ?_) (fun b hb => hblocks b (List.mem_cons_of_mem _ hb)) ?_)
      · rw [← Function.iterate_add_apply]
        exact hbound _
      · rw [List.length_cons] at hlen
        show timer.left - _ < _
        omega

end Backoff
