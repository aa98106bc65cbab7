/-
# Checked memory

A C function that is given an array and its length may touch the elements of the array
and nothing else.  Here every access is checked: a function on arrays is a computation
in `Checked`, and it ends in a `Fault` where the C function would read or write outside
of an array, or where one of its loops would not end.  That it never does is a theorem
about the function, and what it returns is then what the C function returns.

An array is the list of its elements.  Sizes and offsets are `size_t`, natural numbers
below `2 ^ 64`, with the sums and differences that wrap around written as such.  No
object has more than `PTRDIFF_MAX` bytes, because the difference of two pointers into it
has to be a `ptrdiff_t`.
-/

import Mathlib.Algebra.Order.Ring.Nat
import Mathlib.Tactic.Common

namespace Netstack

universe u

/-! ### Sizes -/

/-- `SIZE_MAX` -/
def sizeMax : ℕ := 2 ^ 64 - 1

/-- `PTRDIFF_MAX`, which bounds the length of every object. -/
def maxObjectLen : ℕ := 2 ^ 63 - 1

/-- The sum of two values of type `size_t`. -/
def sizeAdd (a b : ℕ) : ℕ := (a + b) % 2 ^ 64

/-- The difference of two values of type `size_t`. -/
def sizeSub (a b : ℕ) : ℕ := (a + (2 ^ 64 - b)) % 2 ^ 64

/-- The product of two values of type `size_t`. -/
def sizeMul (a b : ℕ) : ℕ := a * b % 2 ^ 64

theorem sizeAdd_of_le {a b : ℕ} (h : a + b ≤ sizeMax) : sizeAdd a b = a + b := by
  unfold sizeMax at h
  exact Nat.mod_eq_of_lt (by omega)

/-- A difference that is not negative does not wrap. -/
theorem sizeSub_of_le {a b : ℕ} (hb : b ≤ a) (ha : a ≤ sizeMax) : sizeSub a b = a - b := by
  unfold sizeMax at ha
  unfold sizeSub
  have hsum : a + (2 ^ 64 - b) = a - b + 2 ^ 64 := by omega
  rw [hsum, Nat.add_mod_right]
  exact Nat.mod_eq_of_lt (by omega)

theorem sizeMul_of_le {a b : ℕ} (h : a * b ≤ sizeMax) : sizeMul a b = a * b := by
  unfold sizeMax at h
  exact Nat.mod_eq_of_lt (by omega)

/-- Offsets into an object leave room for a bounded increment. -/
theorem sizeAdd_of_object {a b len : ℕ} (hlen : len ≤ maxObjectLen) (ha : a ≤ len)
    (hb : b ≤ 2 ^ 63) : sizeAdd a b = a + b := by
  unfold maxObjectLen at hlen
  exact sizeAdd_of_le (by unfold sizeMax; omega)

/-! ### Accesses -/

/-- What a C function could do instead of returning. -/
inductive Fault where
  /-- read outside of an array -/
  | read
  /-- write outside of an array -/
  | write
  /-- run through a loop without an end -/
  | diverge
deriving DecidableEq, Repr

/-- A computation whose accesses are checked. -/
abbrev Checked (β : Type u) := Except Fault β

/-- What a computation returns is handed on. -/
theorem ok_bind {β γ : Type u} (b : β) (next : β → Checked γ) :
    ((.ok b : Checked β) >>= next) = next b := rfl

/-- What ends in a fault afterwards does so in the end. -/
theorem bind_error {β γ : Type u} {first : Checked β} {next : β → Checked γ}
    (h : ∀ b, ∃ fault, next b = .error fault) : ∃ fault, first >>= next = .error fault := by
  cases first with
  | error fault => exact ⟨fault, rfl⟩
  | ok b => exact h b

/-- What returns has returned from its parts. -/
theorem bind_eq_ok {β γ : Type u} {first : Checked β} {next : β → Checked γ} {c : γ}
    (h : first >>= next = .ok c) : ∃ b, first = .ok b ∧ next b = .ok c := by
  cases first with
  | error fault => exact absurd h (by rintro ⟨⟩)
  | ok b => exact ⟨b, rfl, h⟩

variable {α : Type u}

/-- `data[i]` -/
def readAt (data : List α) (i : ℕ) : Checked α :=
  match data[i]? with
  | some x => .ok x
  | none => .error .read

/-- The source of a `memcpy` of `n` elements from `data + i`. -/
def readRange (data : List α) (i n : ℕ) : Checked (List α) :=
  if i + n ≤ data.length then .ok ((data.drop i).take n) else .error .read

/-- `data[i] = x` -/
def writeAt (data : List α) (i : ℕ) (x : α) : Checked (List α) :=
  if i < data.length then .ok (data.set i x) else .error .write

/-- The destination of a `memcpy` of the elements `xs` to `data + i`. -/
def writeRange (data : List α) (i : ℕ) (xs : List α) : Checked (List α) :=
  if i + xs.length ≤ data.length then .ok (data.take i ++ xs ++ data.drop (i + xs.length))
  else .error .write

theorem readAt_of_lt {data : List α} {i : ℕ} (h : i < data.length) :
    readAt data i = .ok data[i] := by
  rw [readAt, List.getElem?_eq_getElem h]

/-- Reading the element that a suffix begins with. -/
theorem readAt_of_drop {data rest : List α} {i : ℕ} {x : α} (h : data.drop i = x :: rest) :
    readAt data i = .ok x := by
  have hget : data[i]? = some x := by
    rw [← List.head?_drop, h, List.head?_cons]
  rw [readAt, hget]

theorem readRange_of_le {data : List α} {i n : ℕ} (h : i + n ≤ data.length) :
    readRange data i n = .ok ((data.drop i).take n) := if_pos h

/-- Reading a front part. -/
theorem readRange_front {front : List α} {n : ℕ} (h : front.length = n) (rest : List α) :
    readRange (front ++ rest) 0 n = .ok front := by
  subst h
  have hroom : 0 + front.length ≤ (front ++ rest).length := by
    rw [List.length_append]
    omega
  rw [readRange_of_le hroom, List.drop_zero, List.take_left]

/-- What was written is there. -/
theorem mem_of_writeAt {data left : List α} {i : ℕ} {x : α} (h : writeAt data i x = .ok left) :
    x ∈ left := by
  unfold writeAt at h
  split_ifs at h with hi
  exact Except.ok.inj h ▸ List.mem_set hi x

theorem writeAt_of_lt {data : List α} {i : ℕ} (h : i < data.length) (x : α) :
    writeAt data i x = .ok (data.set i x) := if_pos h

theorem writeRange_of_le {data xs : List α} {i : ℕ} (h : i + xs.length ≤ data.length) :
    writeRange data i xs = .ok (data.take i ++ xs ++ data.drop (i + xs.length)) := if_pos h

/-- Writing behind what has been written. -/
theorem writeRange_append {before rest xs : List α} {i : ℕ} (hi : before.length = i)
    (h : xs.length ≤ rest.length) :
    writeRange (before ++ rest) i xs = .ok (before ++ xs ++ rest.drop xs.length) := by
  subst hi
  have hroom : before.length + xs.length ≤ (before ++ rest).length := by
    rw [List.length_append]
    omega
  rw [writeRange_of_le hroom, List.take_left, ← List.drop_drop, List.drop_left]

/-- Writing one element behind what has been written. -/
theorem writeAt_append {before : List α} {i : ℕ} (hi : before.length = i) (old x : α)
    (rest : List α) : writeAt (before ++ old :: rest) i x = .ok (before ++ [x] ++ rest) := by
  subst hi
  rw [writeAt_of_lt (by simp), List.set_append_right _ _ le_rfl, Nat.sub_self]
  simp

/-- Writing into a front part leaves what is behind it. -/
theorem writeRange_front {front xs : List α} {i : ℕ} (h : i + xs.length ≤ front.length)
    (rest : List α) : writeRange (front ++ rest) i xs =
      .ok (front.take i ++ xs ++ front.drop (i + xs.length) ++ rest) := by
  have hroom : i + xs.length ≤ (front ++ rest).length := by
    rw [List.length_append]
    omega
  rw [writeRange_of_le hroom, List.take_append_of_le_length (by omega),
    List.drop_append_of_le_length h, List.append_assoc _ _ rest]

/-! ### Fields -/

/-- Writing fields at their offsets, one after the other. -/
def writeFields (data : List α) : List (ℕ × List α) → Checked (List α)
  | [] => .ok data
  | (i, xs) :: fields => do
      let data ← writeRange data i xs
      writeFields data fields

/-- Every field begins where the one before it ends. -/
def Adjacent : ℕ → List (ℕ × List α) → Prop
  | _, [] => True
  | start, (i, xs) :: fields => i = start ∧ Adjacent (start + xs.length) fields

/-- **Adjacent fields** end up one behind the other, and what is behind them is left. -/
theorem writeFields_append {before rest : List α} {fields : List (ℕ × List α)}
    (hfields : Adjacent before.length fields)
    (hroom : (fields.flatMap Prod.snd).length ≤ rest.length) :
    writeFields (before ++ rest) fields = .ok (before ++ fields.flatMap Prod.snd ++
      rest.drop (fields.flatMap Prod.snd).length) := by
  induction fields generalizing before rest with
  | nil => simp [writeFields]
  | cons field fields ih =>
      obtain ⟨i, xs⟩ := field
      obtain ⟨rfl, hrest⟩ := hfields
      rw [List.flatMap_cons, List.length_append] at hroom
      dsimp only at hroom
      have hxs : xs.length ≤ rest.length := by omega
      have hlen : (before ++ xs).length = before.length + xs.length := List.length_append
      have hdrop : (fields.flatMap Prod.snd).length ≤ (rest.drop xs.length).length := by
        rw [List.length_drop]
        omega
      have hnext := @ih (before ++ xs) (rest.drop xs.length) (hlen ▸ hrest) hdrop
      rw [writeFields, writeRange_append rfl hxs, ok_bind, hnext, List.flatMap_cons,
        List.length_append, List.drop_drop, List.append_assoc before xs]

/-! ### Arrays with a length -/

/-- An array in a struct, and the field that says how much of it is used. -/
structure CountedArray (α : Type u) (capacity : ℕ) where
  elements : List α
  len : ℕ
  length_elements : elements.length = capacity
  len_le : len ≤ sizeMax

variable {capacity : ℕ}

/-- The part of the array that is used. -/
def CountedArray.used (array : CountedArray α capacity) : List α := array.elements.take array.len

theorem CountedArray.length_used_le (array : CountedArray α capacity) :
    array.used.length ≤ capacity := by
  rw [used, List.length_take, array.length_elements]
  exact Nat.min_le_right _ _

theorem CountedArray.length_used {array : CountedArray α capacity} (h : array.len ≤ capacity) :
    array.used.length = array.len := by
  rw [used, List.length_take, array.length_elements, Nat.min_eq_left h]

/-- `if (len > 0) memcpy(data + i, array, len)` -/
def CountedArray.copyTo (array : CountedArray α capacity) (data : List α) (i : ℕ) :
    Checked (List α) :=
  if array.len > 0 then do
    let xs ← readRange array.elements 0 array.len
    writeRange data i xs
  else .ok data

/-- Copying the array behind what has been written. -/
theorem CountedArray.copyTo_append {array : CountedArray α capacity} (hlen : array.len ≤ capacity)
    {before rest : List α} {i : ℕ} (hi : before.length = i) (hroom : array.len ≤ rest.length) :
    array.copyTo (before ++ rest) i = .ok (before ++ array.used ++ rest.drop array.len) := by
  have hused := length_used hlen
  unfold copyTo
  split_ifs with hpos
  · have hread : readRange array.elements 0 array.len = .ok array.used := by
      rw [readRange_of_le (by rw [array.length_elements]; omega)]
      rfl
    rw [hread, ok_bind, writeRange_append hi (by omega), hused]
  · have hzero : array.len = 0 := by omega
    rw [used, hzero]
    simp

/-- Copying more than the array holds. -/
theorem CountedArray.copyTo_of_lt {array : CountedArray α capacity} (h : capacity < array.len)
    (data : List α) (i : ℕ) : array.copyTo data i = .error .read := by
  have hread : readRange array.elements 0 array.len = .error .read := by
    unfold readRange
    rw [array.length_elements, if_neg (by omega)]
  rw [copyTo, if_pos (by omega), hread]
  rfl

/-! ### Memory that does not matter -/

/-- A computation on memory with a part `i` that is unknown returns, and the unknown part has no
influence on what it returns. -/
def Settled {ι : Sort*} {β : Type u} (computation : ι → Checked β) : Prop :=
  ∃ b, ∀ i, computation i = .ok b

section Settled

variable {ι : Sort*} {β γ : Type u} {first : ι → Checked β} {next : ι → β → Checked γ}

theorem Settled.pure (b : β) : Settled fun _ : ι => (pure b : Checked β) := ⟨b, fun _ => rfl⟩

/-- **Computations one after the other.** -/
theorem Settled.bind {b : β} (h : ∀ i, first i = .ok b) (hnext : Settled fun i => next i b) :
    Settled fun i => first i >>= next i := by
  obtain ⟨c, hc⟩ := hnext
  refine ⟨c, fun i => ?_⟩
  dsimp only
  rw [h i, ok_bind]
  exact hc i

/-- A condition on what is known. -/
theorem Settled.ite {c : Prop} [Decidable c] {other : ι → Checked β} (h : c → Settled first)
    (h' : ¬c → Settled other) : Settled fun i => if c then first i else other i := by
  split_ifs with hc
  · exact h hc
  · exact h' hc

end Settled

/-- An access to the known part. -/
theorem readAt_append_left {known rest : List α} {i : ℕ} (h : i < known.length) :
    readAt (known ++ rest) i = readAt known i := by
  rw [readAt, readAt, List.getElem?_append_left h]

/-- Reading a part of what is known. -/
theorem readRange_append_left {known rest : List α} {i n : ℕ} (h : i + n ≤ known.length) :
    readRange (known ++ rest) i n = .ok ((known.drop i).take n) := by
  rw [readRange_of_le (by rw [List.length_append]; omega),
    List.drop_append_of_le_length (by omega), List.take_append_of_le_length]
  rw [List.length_drop]
  omega

end Netstack
